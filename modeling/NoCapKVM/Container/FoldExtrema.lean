import Mathlib.Order.Bounds.Basic
import Mathlib.Order.MinMax

/-! Folds by `min` and `max` over a list. -/

namespace List

variable {α : Type} [LinearOrder α]

theorem foldl_min_le (as : List α) (init : α) : as.foldl min init ≤ init ∧ ∀ a ∈ as, as.foldl min init ≤ a := by
  induction as generalizing init with
  | nil => exact ⟨le_rfl, nofun⟩
  | cons a as ih =>
      obtain ⟨hInit, hRest⟩ := ih (min init a)
      refine ⟨hInit.trans (min_le_left _ _), fun x hMem => ?_⟩
      rcases List.mem_cons.mp hMem with rfl | hMem
      · exact hInit.trans (min_le_right _ _)
      · exact hRest x hMem

theorem foldl_min_mem (as : List α) (init : α) : as.foldl min init = init ∨ as.foldl min init ∈ as := by
  induction as generalizing init with
  | nil => exact .inl rfl
  | cons a as ih =>
      rw [List.foldl_cons]
      rcases ih (min init a) with hInit | hMem
      · rcases min_choice init a with hMin | hMin
        · exact .inl (hInit.trans hMin)
        · exact .inr (List.mem_cons.mpr (.inl (hInit.trans hMin)))
      · exact .inr (List.mem_cons_of_mem a hMem)

/-- A start that is no smaller than the entries does not count. -/
theorem foldl_min_isLeast {as : List α} (hNe : as ≠ []) {init : α} (hInit : ∀ a ∈ as, a ≤ init) :
    IsLeast {a | a ∈ as} (as.foldl min init) := by
  obtain ⟨-, hLe⟩ := foldl_min_le as init
  refine ⟨?_, hLe⟩
  rcases foldl_min_mem as init with hStart | hMem
  · obtain ⟨a, hMem⟩ := List.exists_mem_of_ne_nil as hNe
    have hUp : a ≤ as.foldl min init := (hInit a hMem).trans (le_of_eq hStart.symm)
    rw [le_antisymm (hLe a hMem) hUp]
    exact hMem
  · exact hMem

theorem foldl_max_isGreatest {as : List α} (hNe : as ≠ []) {init : α} (hInit : ∀ a ∈ as, init ≤ a) :
    IsGreatest {a | a ∈ as} (as.foldl max init) :=
  foldl_min_isLeast (α := αᵒᵈ) hNe hInit

end List
