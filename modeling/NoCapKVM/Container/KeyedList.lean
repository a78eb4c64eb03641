import Mathlib.Data.List.Basic
import Mathlib.Logic.Function.Basic

/-! Lists whose entries have keys, read as maps from keys to entries. -/
namespace KeyedList

variable {α ι : Type} [DecidableEq ι] (key : α → ι)

/-- The first entry of the key gives way to `a`. Without one,
`a` comes last. -/
def put (a : α) : List α → List α
  | [] => [a]
  | b :: l => if key b = key a then a :: l else b :: put a l

/-- The first entry of a key. -/
def lookup (l : List α) (i : ι) : Option α :=
  l.find? fun a => key a = i

@[simp] theorem lookup_nil (i : ι) : lookup key [] i = none := rfl

/-- The head hides what the rest has under its key. -/
theorem lookup_cons (a : α) (l : List α) :
    lookup key (a :: l) = Function.update (lookup key l) (key a) (some a) := by
  funext i
  by_cases h : i = key a
  · simp [lookup, h]
  · simp [lookup, h, Ne.symm h]

theorem lookup_tail {a : α} {l : List α} (hHead : ∀ b ∈ l, key a ≠ key b) : lookup key l (key a) = none := by
  refine List.find?_eq_none.mpr ?_
  intro b hMem hKey
  exact hHead b hMem (of_decide_eq_true hKey).symm

theorem lookup_put (a : α) (l : List α) :
    lookup key (put key a l) = Function.update (lookup key l) (key a) (some a) := by
  induction l with
  | nil => exact lookup_cons key a []
  | cons b l ih =>
      unfold put
      split
      case isTrue hKey => rw [lookup_cons, lookup_cons, hKey, Function.update_idem]
      case isFalse hKey => rw [lookup_cons, lookup_cons, ih, Function.update_comm hKey]

theorem mem_of_mem_put {a b : α} {l : List α} (h : b ∈ put key a l) : b = a ∨ b ∈ l := by
  induction l with
  | nil => exact .inl (List.mem_singleton.mp h)
  | cons c l ih =>
      unfold put at h
      split at h
      · exact (List.mem_cons.mp h).imp_right (List.mem_cons_of_mem c)
      · rcases List.mem_cons.mp h with rfl | hMem
        · exact .inr List.mem_cons_self
        · exact (ih hMem).imp_right (List.mem_cons_of_mem c)

variable {key} {l : List α} (hApart : l.Pairwise fun a b => key a ≠ key b)
include hApart

theorem pairwise_put (a : α) : (put key a l).Pairwise fun a b => key a ≠ key b := by
  induction l with
  | nil => exact List.pairwise_singleton _ a
  | cons b l ih =>
      obtain ⟨hHead, hTail⟩ := List.pairwise_cons.mp hApart
      unfold put
      split
      case isTrue hKey => exact List.pairwise_cons.mpr ⟨hKey ▸ hHead, hTail⟩
      case isFalse hKey =>
        refine List.pairwise_cons.mpr ⟨?_, ih hTail⟩
        intro c hC
        rcases mem_of_mem_put key hC with rfl | hMem
        · exact hKey
        · exact hHead c hMem

/-- With the first entry of a key the map loses the key. -/
theorem lookup_eraseP (i : ι) :
    lookup key (l.eraseP fun a => key a = i) = Function.update (lookup key l) i none := by
  induction l with
  | nil => exact (Function.update_eq_self i _).symm
  | cons b l ih =>
      obtain ⟨hHead, hTail⟩ := List.pairwise_cons.mp hApart
      by_cases hKey : key b = i
      · rw [List.eraseP_cons_of_pos (by simpa using hKey), lookup_cons, ← hKey, Function.update_idem,
          ← lookup_tail key hHead, Function.update_eq_self]
      · rw [List.eraseP_cons_of_neg (by simpa using hKey), lookup_cons, lookup_cons, ih hTail,
          Function.update_comm hKey]

/-- The list has an entry of the key just when the map has, and no other. -/
theorem filter_key (i : ι) : (l.filter fun a => key a = i) = (lookup key l i).toList := by
  induction l with
  | nil => rfl
  | cons b l ih =>
      obtain ⟨hHead, hTail⟩ := List.pairwise_cons.mp hApart
      rw [lookup_cons]
      by_cases hKey : key b = i
      · rw [List.filter_cons_of_pos (by simpa using hKey), ih hTail, ← hKey, lookup_tail key hHead,
          Function.update_self]
        rfl
      · rw [List.filter_cons_of_neg (by simpa using hKey), ih hTail, Function.update_of_ne (Ne.symm hKey)]

theorem lookup_filter (q : α → Bool) (i : ι) : lookup key (l.filter q) i = (lookup key l i).filter q := by
  induction l with
  | nil => rfl
  | cons b l ih =>
      obtain ⟨hHead, hTail⟩ := List.pairwise_cons.mp hApart
      by_cases hKey : i = key b
      · subst hKey
        have hRest := ih hTail
        rw [lookup_tail key hHead] at hRest
        by_cases hKept : q b = true
        · rw [List.filter_cons_of_pos hKept, lookup_cons, lookup_cons, Function.update_self, Function.update_self]
          exact (if_pos hKept).symm
        · rw [List.filter_cons_of_neg hKept, hRest, lookup_cons, Function.update_self]
          exact (if_neg hKept).symm
      · rw [lookup_cons, Function.update_of_ne hKey, ← ih hTail]
        by_cases hKept : q b = true
        · rw [List.filter_cons_of_pos hKept, lookup_cons, Function.update_of_ne hKey]
        · rw [List.filter_cons_of_neg hKept]

theorem mem_iff_lookup (a : α) : a ∈ l ↔ lookup key l (key a) = some a := by
  rw [← Option.mem_toList.trans Option.mem_def, ← filter_key hApart]
  simp

end KeyedList
