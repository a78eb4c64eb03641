import Mathlib.Data.Nat.Count

/-! A latch over numbered steps: one kind of step sets it, another clears it, and a
setting that finds it clear begins an episode. -/
namespace EventLog

variable {sets clears : Nat → Prop}

/-- Some step below `n` set the latch, and none since the latest such step
cleared it. -/
def Held (sets clears : Nat → Prop) (n : Nat) : Prop :=
  ∃ i < n, sets i ∧ (∀ j < n, i < j → ¬ sets j) ∧ ∀ k < n, i < k → ¬ clears k

/-- A step that sets the latch for the first time, or after a step that has
cleared it since the previous setting. -/
def StartsEpisode (sets clears : Nat → Prop) (n : Nat) : Prop :=
  sets n ∧ ((∀ i < n, ¬ sets i) ∨
    ∃ i < n, sets i ∧ (∀ j < n, i < j → ¬ sets j) ∧ ∃ k < n, i < k ∧ clears k)

instance [DecidablePred sets] [DecidablePred clears] : DecidablePred (StartsEpisode sets clears) :=
  fun n => inferInstanceAs (Decidable (sets n ∧ _))

theorem not_held_zero : ¬ Held sets clears 0 := by
  rintro ⟨i, hLess, -⟩
  exact Nat.not_lt_zero i hLess

theorem held_succ (n : Nat) : Held sets clears (n + 1) ↔ sets n ∨ Held sets clears n ∧ ¬ clears n := by
  constructor
  · rintro ⟨i, hLess, hSets, hLatest, hKept⟩
    rcases Nat.lt_succ_iff_lt_or_eq.mp hLess with hBelow | rfl
    · refine .inr ⟨⟨i, hBelow, hSets, ?_, ?_⟩, hKept n (Nat.lt_succ_self n) hBelow⟩
      · intro j hJ
        exact hLatest j (Nat.lt_succ_of_lt hJ)
      · intro k hK
        exact hKept k (Nat.lt_succ_of_lt hK)
    · exact .inl hSets
  · intro h
    by_cases hSets : sets n
    · refine ⟨n, Nat.lt_succ_self n, hSets, ?_, ?_⟩ <;> intro j hJ hAfter <;> omega
    · obtain ⟨⟨i, hLess, hSet, hLatest, hKept⟩, hNow⟩ := h.resolve_left hSets
      refine ⟨i, Nat.lt_succ_of_lt hLess, hSet, ?_, ?_⟩
      · intro j hJ hAfter
        rcases Nat.lt_succ_iff_lt_or_eq.mp hJ with hBelow | rfl
        · exact hLatest j hBelow hAfter
        · exact hSets
      · intro k hK hAfter
        rcases Nat.lt_succ_iff_lt_or_eq.mp hK with hBelow | rfl
        · exact hKept k hBelow hAfter
        · exact hNow

/-- Steps that have set the latch have a latest one. -/
theorem exists_latest {n : Nat} (hSome : ∃ i < n, sets i) :
    ∃ i < n, sets i ∧ ∀ j < n, i < j → ¬ sets j := by
  induction n with
  | zero =>
      obtain ⟨i, hLess, -⟩ := hSome
      exact absurd hLess (Nat.not_lt_zero i)
  | succ n ih =>
      by_cases hSets : sets n
      · exact ⟨n, Nat.lt_succ_self n, hSets, fun j hJ hAfter => by omega⟩
      · obtain ⟨i, hLess, hSet⟩ := hSome
        have hApart : i ≠ n := fun hEq => hSets (hEq ▸ hSet)
        obtain ⟨m, hBelow, hSetM, hLatest⟩ := ih ⟨i, by omega, hSet⟩
        refine ⟨m, Nat.lt_succ_of_lt hBelow, hSetM, ?_⟩
        intro j hJ hAfter
        rcases Nat.lt_succ_iff_lt_or_eq.mp hJ with hJ | rfl
        · exact hLatest j hJ hAfter
        · exact hSets

theorem startsEpisode_iff (n : Nat) : StartsEpisode sets clears n ↔ sets n ∧ ¬ Held sets clears n := by
  constructor
  · rintro ⟨hSets, hFresh⟩
    refine ⟨hSets, ?_⟩
    rintro ⟨i, hLess, hSet, hLatest, hKept⟩
    rcases hFresh with hFirst | ⟨m, hM, hSetM, hLatestM, k, hK, hAfter, hClears⟩
    · exact hFirst i hLess hSet
    · -- both are the latest step that set the latch
      have hSame : i = m := by
        rcases Nat.lt_trichotomy i m with hBelow | hEq | hAbove
        · exact absurd hSetM (hLatest m hM hBelow)
        · exact hEq
        · exact absurd hSet (hLatestM i hLess hAbove)
      exact hKept k hK (hSame ▸ hAfter) hClears
  · rintro ⟨hSets, hClear⟩
    refine ⟨hSets, ?_⟩
    by_cases hSome : ∃ i < n, sets i
    · obtain ⟨i, hLess, hSet, hLatest⟩ := exists_latest hSome
      refine .inr ⟨i, hLess, hSet, hLatest, ?_⟩
      by_contra hNone
      refine hClear ⟨i, hLess, hSet, hLatest, ?_⟩
      intro k hK hAfter hClears
      exact hNone ⟨k, hK, hAfter, hClears⟩
    · refine .inl ?_
      intro i hLess hSet
      exact hSome ⟨i, hLess, hSet⟩

/-- A flag that the setting steps raise and the clearing ones lower
is the latch. -/
theorem flag_iff_held (flag : Nat → Prop) (hStart : ¬ flag 0)
    (hStep : ∀ n, flag (n + 1) ↔ sets n ∨ flag n ∧ ¬ clears n) (n : Nat) : flag n ↔ Held sets clears n := by
  induction n with
  | zero => exact iff_of_false hStart not_held_zero
  | succ n ih => rw [hStep, held_succ, ih]

/-- A counter that a setting step advances when it finds the flag down counts
episodes. -/
theorem counter_eq_episodes [DecidablePred sets] [DecidablePred clears] (flag : Nat → Prop) [DecidablePred flag]
    (counter : Nat → Nat) (hStart : ¬ flag 0) (hStep : ∀ n, flag (n + 1) ↔ sets n ∨ flag n ∧ ¬ clears n)
    (hZero : counter 0 = 0) (hCount : ∀ n, counter (n + 1) = counter n + if sets n ∧ ¬ flag n then 1 else 0) (n : Nat) :
    counter n = Nat.count (StartsEpisode sets clears) n := by
  induction n with
  | zero => rw [hZero, Nat.count_zero]
  | succ n ih =>
      have hSame : StartsEpisode sets clears n ↔ sets n ∧ ¬ flag n := by
        rw [startsEpisode_iff, flag_iff_held flag hStart hStep]
      rw [hCount, Nat.count_succ, ih, if_congr hSame.symm rfl rfl]

end EventLog
