import Mathlib.Data.List.Induction

/-! Logs of events that belong to keys: the last event of each key, and which
keys it leaves down. -/
namespace EventLog

variable {α ι : Type} [DecidableEq ι] (key : α → ι)

def last? (log : List α) (i : ι) : Option α :=
  (log.filter fun a => key a = i).getLast?

@[simp] theorem last?_nil (i : ι) : last? key [] i = none := rfl

theorem last?_append (log more : List α) (i : ι) :
    last? key (log ++ more) i = (last? key more i).or (last? key log i) := by
  unfold last?
  rw [List.filter_append, List.getLast?_append]

theorem last?_concat (log : List α) (a : α) (i : ι) :
    last? key (log ++ [a]) i = if key a = i then some a else last? key log i := by
  rw [last?_append]
  by_cases h : key a = i <;> simp [last?, h]

variable {key}

theorem key_of_last? {log : List α} {i : ι} {a : α} (h : last? key log i = some a) : key a = i ∧ a ∈ log := by
  have hMem := List.mem_filter.mp (List.mem_of_getLast? h)
  exact ⟨of_decide_eq_true hMem.2, hMem.1⟩

variable (key) (down : α → Bool)

/-- The last event of the key leaves it down. -/
def Down (log : List α) (i : ι) : Prop :=
  (last? key log i).any down = true

instance (log : List α) (i : ι) : Decidable (Down key down log i) :=
  inferInstanceAs (Decidable (_ = true))

theorem not_down_nil (i : ι) : ¬ Down key down [] i :=
  nofun

theorem down_concat (log : List α) (a : α) (i : ι) :
    Down key down (log ++ [a]) i ↔ if key a = i then down a = true else Down key down log i := by
  unfold Down
  rw [last?_concat]
  split <;> rfl

variable {key down}

/-- Releases leave down what they do not name. -/
theorem down_append_released {log more : List α} (hMore : ∀ a ∈ more, down a = false) (i : ι) :
    Down key down (log ++ more) i ↔ Down key down log i ∧ ∀ a ∈ more, key a ≠ i := by
  induction more using List.reverseRecOn with
  | nil => simp
  | append_singleton more a ih =>
      have hUp : down a = false := hMore a (List.mem_append_right _ List.mem_cons_self)
      have hBefore := ih fun b hB => hMore b (List.mem_append_left _ hB)
      rw [← List.append_assoc, down_concat]
      by_cases h : key a = i
      · simp [h, hUp]
      · rw [if_neg h, hBefore]
        simp only [List.mem_append, List.mem_singleton]
        exact ⟨fun ⟨hDown, hAll⟩ => ⟨hDown, fun b hB => hB.elim (hAll b) fun hEq => hEq ▸ h⟩,
          fun ⟨hDown, hAll⟩ => ⟨hDown, fun b hB => hAll b (.inl hB)⟩⟩

end EventLog
