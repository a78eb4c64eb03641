import Mathlib.Order.Basic

/-! Byte buffers whose accesses are checked, and counted loops over them. An access outside
the buffer has no result. -/
namespace Memory

variable {α σ : Type}

def load (buffer : List α) (i : Nat) : Option α := buffer[i]?

def store (buffer : List α) (i : Nat) (value : α) : Option (List α) :=
  if i < buffer.length then some (buffer.set i value) else none

/-- The `n` bytes from `lo` on. -/
def loads (buffer : List α) (lo : Nat) : Nat → Option (List α)
  | 0 => some []
  | n + 1 => do return (← load buffer lo) :: (← loads buffer (lo + 1) n)

theorem loads_inside {buffer : List α} {lo n : Nat} (h : lo + n ≤ buffer.length) :
    loads buffer lo n = some ((buffer.drop lo).take n) := by
  induction n generalizing lo with
  | zero => rfl
  | succ n ih =>
      have hFirst : lo < buffer.length := by omega
      rw [loads, ih (by omega), load, List.getElem?_eq_getElem hFirst, List.drop_eq_getElem_cons hFirst]
      rfl

/-- One value after the other, from `lo` on. -/
def stores : List α → Nat → List α → Option (List α)
  | buffer, _, [] => some buffer
  | buffer, lo, value :: values => do stores (← store buffer lo value) (lo + 1) values

/-- Writing on where the last piece ended. -/
theorem stores_next {done old rest values : List α} (h : old.length = values.length) :
    stores (done ++ (old ++ rest)) done.length values = some (done ++ (values ++ rest)) := by
  induction values generalizing done old with
  | nil =>
      obtain rfl := List.length_eq_zero_iff.mp h
      rfl
  | cons value values ih =>
      obtain ⟨first, old, rfl⟩ := List.exists_cons_of_length_eq_add_one h
      have hInside : done.length < (done ++ (first :: old ++ rest)).length := by simp
      have hSet : (done ++ (first :: old ++ rest)).set done.length value = (done ++ [value]) ++ (old ++ rest) := by
        simp
      have hNext : stores ((done ++ [value]) ++ (old ++ rest)) (done ++ [value]).length values =
          some ((done ++ [value]) ++ (values ++ rest)) := ih (Nat.succ.inj h)
      rw [List.length_append, List.length_singleton] at hNext
      rw [stores, store, if_pos hInside, hSet, Option.bind_eq_bind, Option.bind_some, hNext]
      simp only [List.append_assoc, List.cons_append, List.nil_append]

/-- `for (int i = 0; i < n; ++i)` -/
def forLoop (body : Nat → σ → Option σ) : Nat → σ → Option σ
  | 0, s => some s
  | n + 1, s => do body n (← forLoop body n s)

/-- What every round preserves, the loop does. -/
theorem forLoop_inv {body : Nat → σ → Option σ} (Inv : Nat → σ → Prop) {n : Nat} {s : σ} (hStart : Inv 0 s)
    (hRound : ∀ i < n, ∀ t, Inv i t → ∃ t', body i t = some t' ∧ Inv (i + 1) t') :
    ∃ t, forLoop body n s = some t ∧ Inv n t := by
  induction n with
  | zero => exact ⟨s, rfl, hStart⟩
  | succ n ih =>
      obtain ⟨t, hRun, hInv⟩ := ih fun i hi => hRound i (Nat.lt_succ_of_lt hi)
      obtain ⟨t', hLast, hNext⟩ := hRound n (Nat.lt_succ_self n) t hInv
      refine ⟨t', ?_, hNext⟩
      simp only [forLoop, hRun, Option.bind_eq_bind, Option.bind_some, hLast]

/-- The `n` bytes of `after` from `lo` on are those of `value`, and the others
are as they were `before`. -/
structure Filled (lo n : Nat) (value : Nat → Option α) (before after : List α) : Prop where
  length : after.length = before.length
  inside : ∀ j < n, after[lo + j]? = value j
  outside : ∀ i, i < lo ∨ lo + n ≤ i → after[i]? = before[i]?

namespace Filled

variable {lo n m : Nat} {value : Nat → Option α} {before between after : List α}

theorem none (lo : Nat) (value : Nat → Option α) (before : List α) : Filled lo 0 value before before :=
  ⟨rfl, nofun, fun _ _ => rfl⟩

/-- A second piece right behind the first. -/
theorem append (hFirst : Filled lo n value before between)
    (hSecond : Filled (lo + n) m (fun j => value (n + j)) between after) : Filled lo (n + m) value before after where
  length := hSecond.length.trans hFirst.length
  inside := by
    intro j hj
    by_cases hOld : j < n
    · rw [hSecond.outside (lo + j) (.inl (by omega))]
      exact hFirst.inside j hOld
    · have hNew := hSecond.inside (j - n) (by omega)
      rw [show lo + n + (j - n) = lo + j by omega, show n + (j - n) = j by omega] at hNew
      exact hNew
  outside := by
    intro i hi
    rw [hSecond.outside i (by omega)]
    exact hFirst.outside i (by omega)

theorem congr {value' : Nat → Option α} (h : Filled lo n value before after) (hValue : ∀ j < n, value j = value' j) :
    Filled lo n value' before after :=
  ⟨h.length, fun j hj => (h.inside j hj).trans (hValue j hj), h.outside⟩

end Filled

theorem store_filled {buffer : List α} {i : Nat} {v : α} (h : i < buffer.length) :
    ∃ after, store buffer i v = some after ∧ Filled i 1 (fun _ => some v) buffer after := by
  refine ⟨buffer.set i v, if_pos h, List.length_set, ?_, ?_⟩
  · intro j hj
    obtain rfl : j = 0 := by omega
    rw [Nat.add_zero, List.getElem?_set_self h]
  · intro k hk
    exact List.getElem?_set_ne (by omega)

/-- Pieces of the same length, one for each round of a loop. -/
theorem forLoop_filled {body : Nat → List α → Option (List α)} {width count lo : Nat} {value : Nat → Option α}
    {buffer : List α}
    (hRound : ∀ i < count, ∀ before, before.length = buffer.length →
      ∃ after, body i before = some after ∧ Filled (lo + i * width) width (fun j => value (i * width + j)) before after) :
    ∃ after, forLoop body count buffer = some after ∧ Filled lo (count * width) value buffer after := by
  apply forLoop_inv (fun i after => Filled lo (i * width) value buffer after)
  · rw [Nat.zero_mul]
    exact .none lo value buffer
  · intro i hi between hBetween
    obtain ⟨after, hBody, hFilled⟩ := hRound i hi between hBetween.length
    refine ⟨after, hBody, ?_⟩
    rw [Nat.succ_mul]
    exact hBetween.append hFilled

end Memory
