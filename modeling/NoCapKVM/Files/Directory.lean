import Mathlib.Logic.Function.Basic

/-! The files of a directory by their names. Operations on a file that is missing change
nothing, as those that report an error code do. -/
namespace Files

abbrev Directory (ν β : Type) := ν → Option (List β)

namespace Directory

variable {ν β : Type} [DecidableEq ν] (name : ν) (d : Directory ν β)

def remove : Directory ν β := Function.update d name none

/-- What the new name had before is lost. -/
def rename (old new : ν) : Directory ν β :=
  match d old with
  | none => d
  | some content => Function.update (d.remove old) new (some content)

/-- `std::ios::trunc` -/
def truncate : Directory ν β := Function.update d name (some [])

/-- `std::ios::app` -/
def openAppend : Directory ν β := Function.update d name (some ((d name).getD []))

def append (bytes : List β) : Directory ν β := Function.update d name ((d name).map (· ++ bytes))

variable {d}

theorem rename_from {old new : ν} (h : old ≠ new) : d.rename old new old = none := by
  cases hOld : d old with
  | none => simp only [rename, hOld]
  | some content =>
      simp only [rename, hOld]
      rw [Function.update_of_ne h, remove, Function.update_self]

theorem rename_to {old new : ν} (h : d new = none) : d.rename old new new = d old := by
  cases hOld : d old with
  | none => simp only [rename, hOld, h]
  | some content => simp only [rename, hOld, Function.update_self]

theorem rename_other {old new other : ν} (hOther : other ≠ old) (hNew : other ≠ new) : d.rename old new other = d other := by
  cases hOld : d old with
  | none => simp only [rename, hOld]
  | some content =>
      simp only [rename, hOld]
      rw [Function.update_of_ne hNew, remove, Function.update_of_ne hOther]

/-- `for (int i = n; i >= 1; --i) rename(name(i), name(i + 1));` -/
def shift (name : Nat → ν) : Nat → Directory ν β → Directory ν β
  | 0, d => d
  | n + 1, d => shift name n (d.rename (name (n + 1)) (name (n + 2)))

variable {name : Nat → ν}

/-- A chain of renames whose last target is free moves every file one name up,
also where some of the names have no file. -/
theorem shift_spec (hName : Function.Injective name) {n : Nat} (hFree : d (name (n + 1)) = none) :
    d.shift name n (name 1) = none ∧ (∀ i, 1 ≤ i → i ≤ n → d.shift name n (name (i + 1)) = d (name i)) ∧
      ∀ other, (∀ i, 1 ≤ i → i ≤ n + 1 → other ≠ name i) → d.shift name n other = d other := by
  induction n generalizing d with
  | zero => exact ⟨hFree, fun i hLow hHigh => absurd hLow (by omega), fun _ _ => rfl⟩
  | succ n ih =>
      have hNe : name (n + 1) ≠ name (n + 2) := fun h => absurd (hName h) (by omega)
      obtain ⟨hFirst, hMoved, hOther⟩ := ih (rename_from (d := d) hNe)
      refine ⟨hFirst, ?_, ?_⟩
      · intro i hLow hHigh
        by_cases hLast : i = n + 1
        · subst hLast
          rw [shift, hOther _ fun j _ hJ h => absurd (hName h) (by omega), rename_to hFree]
        · rw [shift, hMoved i hLow (by omega)]
          exact rename_other (fun h => hLast (hName h)) fun h => absurd (hName h) (by omega)
      · intro other hNames
        rw [shift, hOther other fun i hLow hHigh => hNames i hLow (by omega)]
        exact rename_other (hNames (n + 1) (by omega) (by omega)) (hNames (n + 2) (by omega) (by omega))

end Directory
end Files
