import NoCapKVM.Container.KeyedList

/-! Tables whose entries are put in with a time and thrown out when they are too old. An entry
that is old stays until somebody looks. What such a table says is compared with the log of all
entries, newest first. -/
namespace ExpiringTable

variable {α ι : Type} (stamp : α → Nat) (maxAge : Nat)

/-- At `now` the entry may stay. -/
def Fresh (now : Nat) (a : α) : Bool :=
  now - stamp a ≤ maxAge

def prune (now : Nat) (table : List α) : List α :=
  table.filter (Fresh stamp maxAge now)

variable {stamp maxAge}

theorem fresh_earlier {now later : Nat} {a : α} (hLe : now ≤ later) (h : Fresh stamp maxAge later a = true) :
    Fresh stamp maxAge now a = true := by
  have hOld : later - stamp a ≤ maxAge := of_decide_eq_true h
  exact decide_eq_true (Nat.le_trans (Nat.sub_le_sub_right hLe (stamp a)) hOld)

theorem fresh_filter_fresh {now later : Nat} (hLe : now ≤ later) (entry : Option α) :
    (entry.filter (Fresh stamp maxAge now)).filter (Fresh stamp maxAge later) =
      entry.filter (Fresh stamp maxAge later) := by
  rw [Option.filter_filter]
  refine congrArg (Option.filter · entry) ?_
  funext a
  cases h : Fresh stamp maxAge later a with
  | true => rw [fresh_earlier hLe h, Bool.true_and]
  | false => rw [Bool.and_false]

variable [DecidableEq ι] (key : α → ι) (stamp maxAge)

/-- From `now` on the table and the log say the same of what is
not too old. -/
def Agrees (table log : List α) (now : Nat) : Prop :=
  ∀ later ≥ now, ∀ i, (KeyedList.lookup key table i).filter (Fresh stamp maxAge later) =
    (KeyedList.lookup key log i).filter (Fresh stamp maxAge later)

variable {key stamp maxAge} {table log : List α} {now : Nat}

theorem agrees_nil (now : Nat) : Agrees stamp maxAge key ([] : List α) [] now :=
  fun _ _ _ => rfl

theorem Agrees.later (h : Agrees stamp maxAge key table log now) {later : Nat} (hLe : now ≤ later) :
    Agrees stamp maxAge key table log later :=
  fun last hLast => h last (Nat.le_trans hLe hLast)

/-- A new entry goes into both. -/
theorem Agrees.put (h : Agrees stamp maxAge key table log now) (a : α) :
    Agrees stamp maxAge key (KeyedList.put key a table) (a :: log) now := by
  intro later hLater i
  rw [KeyedList.lookup_put, KeyedList.lookup_cons]
  by_cases hKey : i = key a
  · rw [hKey, Function.update_self, Function.update_self]
  · rw [Function.update_of_ne hKey, Function.update_of_ne hKey]
    exact h later hLater i

section Apart

variable (hApart : table.Pairwise fun a b => key a ≠ key b)
include hApart

omit [DecidableEq ι] in
theorem pairwise_prune (now : Nat) : (prune stamp maxAge now table).Pairwise fun a b => key a ≠ key b :=
  hApart.sublist List.filter_sublist

theorem lookup_prune (now : Nat) (i : ι) :
    KeyedList.lookup key (prune stamp maxAge now table) i =
      (KeyedList.lookup key table i).filter (Fresh stamp maxAge now) :=
  KeyedList.lookup_filter hApart _ i

/-- Pruning takes away only what the log does not count any more. -/
theorem Agrees.prune (h : Agrees stamp maxAge key table log now) :
    Agrees stamp maxAge key (prune stamp maxAge now table) log now := by
  intro later hLater i
  rw [lookup_prune hApart, fresh_filter_fresh hLater]
  exact h later hLater i

/-- A table that has just been pruned holds what the log has and is
not too old. -/
theorem Agrees.lookup (h : Agrees stamp maxAge key table log now)
    (hPruned : ∀ a ∈ table, Fresh stamp maxAge now a = true) (i : ι) :
    KeyedList.lookup key table i = (KeyedList.lookup key log i).filter (Fresh stamp maxAge now) := by
  rw [← h now (Nat.le_refl now) i, ← lookup_prune hApart, ExpiringTable.prune, List.filter_eq_self.mpr hPruned]

end Apart

end ExpiringTable
