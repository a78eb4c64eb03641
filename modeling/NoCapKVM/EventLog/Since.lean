import Mathlib.Data.List.Basic

/-! Events of a log since which nothing has undone them. What an event does may
depend on the part of the log before it. -/
namespace EventLog

variable {α : Type} {start stop : List α → α → Prop}

/-- Some event starts it, and none after that one stops it. -/
def Since (start stop : List α → α → Prop) (log : List α) : Prop :=
  ∃ before a after, log = before ++ a :: after ∧ start before a ∧
    ∀ mid b rest, after = mid ++ b :: rest → ¬ stop (before ++ a :: mid) b

theorem not_since_nil : ¬ Since start stop [] := by
  rintro ⟨before, a, after, hEq, -⟩
  exact List.append_ne_nil_of_right_ne_nil before (List.cons_ne_nil a after) hEq.symm

/-- The last event of a log decides, or leaves it as it was. -/
theorem since_concat (log : List α) (a : α) :
    Since start stop (log ++ [a]) ↔ start log a ∨ Since start stop log ∧ ¬ stop log a := by
  constructor
  · rintro ⟨before, b, after, hEq, hStart, hOn⟩
    rcases List.eq_nil_or_concat after with rfl | ⟨after, c, rfl⟩
    · obtain ⟨rfl, hLast⟩ := List.append_inj' hEq rfl
      cases hLast
      exact .inl hStart
    · rw [List.concat_eq_append, ← List.cons_append, ← List.append_assoc] at hEq
      obtain ⟨rfl, hLast⟩ := List.append_inj' hEq rfl
      cases hLast
      refine .inr ⟨⟨before, b, after, rfl, hStart, ?_⟩, hOn after a [] List.concat_eq_append⟩
      intro mid c rest hAfter
      apply hOn mid c (rest ++ [a])
      rw [hAfter, List.concat_eq_append, List.append_assoc, List.cons_append]
  · rintro (hStart | ⟨⟨before, b, after, rfl, hStart, hOn⟩, hLast⟩)
    · refine ⟨log, a, [], rfl, hStart, ?_⟩
      intro mid b rest hEq
      exact absurd hEq.symm (List.append_ne_nil_of_right_ne_nil mid (List.cons_ne_nil b rest))
    · refine ⟨before, b, after ++ [a], by rw [List.append_assoc, List.cons_append], hStart, ?_⟩
      intro mid c rest hEq
      rcases List.eq_nil_or_concat rest with rfl | ⟨rest, d, rfl⟩
      · obtain ⟨rfl, hEnd⟩ := List.append_inj' hEq rfl
        cases hEnd
        exact hLast
      · rw [List.concat_eq_append, ← List.cons_append, ← List.append_assoc] at hEq
        exact hOn mid c rest (List.append_inj_left' hEq rfl)

end EventLog
