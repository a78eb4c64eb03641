import Mathlib.Data.List.Nodup
import Mathlib.Data.List.Pairwise
import Mathlib.Order.Lattice

/-! Finite maps whose entries stand in the order of their keys. -/

/-- Entries with strictly increasing keys. -/
@[ext]
structure OrderedMap (κ α : Type) [LinearOrder κ] where
  entries : List (κ × α)
  ordered : entries.Pairwise fun e f => e.1 < f.1

namespace OrderedMap

variable {κ α β : Type} [LinearOrder κ]

def empty : OrderedMap κ α := ⟨[], .nil⟩

def size (m : OrderedMap κ α) : Nat := m.entries.length

def first? (m : OrderedMap κ α) : Option (κ × α) := m.entries.head?

def eraseFirst (m : OrderedMap κ α) : OrderedMap κ α :=
  ⟨m.entries.tail, m.ordered.sublist m.entries.tail_sublist⟩

def find? (m : OrderedMap κ α) (k : κ) : Option α :=
  (m.entries.find? fun e => e.1 = k).map Prod.snd

def erase (m : OrderedMap κ α) (k : κ) : OrderedMap κ α :=
  ⟨m.entries.filter fun e => e.1 ≠ k, m.ordered.filter _⟩

def insertEntry (k : κ) (a : α) : List (κ × α) → List (κ × α)
  | [] => [(k, a)]
  | e :: rest =>
    if e.1 < k then e :: insertEntry k a rest
    else if k < e.1 then (k, a) :: e :: rest
    else (k, a) :: rest

def map (f : α → β) (m : OrderedMap κ α) : OrderedMap κ β :=
  ⟨m.entries.map fun e => (e.1, f e.2), List.pairwise_map.mpr m.ordered⟩

@[simp] theorem entries_empty : (empty : OrderedMap κ α).entries = [] := rfl

@[simp] theorem size_empty : (empty : OrderedMap κ α).size = 0 := rfl

/-- A key has at most one entry. -/
theorem eq_of_mem {m : OrderedMap κ α} {e f : κ × α} (hE : e ∈ m.entries) (hF : f ∈ m.entries)
    (hKey : e.1 = f.1) : e = f := by
  have hSymm : Std.Symm fun e f : κ × α => e.1 = f.1 → e = f := ⟨fun _ _ h hEq => (h hEq.symm).symm⟩
  have hPairs : m.entries.Pairwise fun e f => e.1 = f.1 → e = f :=
    m.ordered.imp fun hLess hEq => absurd hEq (ne_of_lt hLess)
  exact List.Pairwise.forall_of_forall (fun _ _ _ => rfl) hPairs hE hF hKey

/-- A lookup finds the entries of the map, and nothing else. -/
theorem find?_eq_some_iff {m : OrderedMap κ α} {k : κ} {a : α} : m.find? k = some a ↔ (k, a) ∈ m.entries := by
  unfold find?
  rw [Option.map_eq_some_iff]
  constructor
  · rintro ⟨e, hFind, rfl⟩
    have hKey : e.1 = k := of_decide_eq_true (List.find?_some (p := fun e : κ × α => decide (e.1 = k)) hFind)
    rw [← hKey]
    exact List.mem_of_find?_eq_some hFind
  · intro hMem
    cases hFind : m.entries.find? fun e => e.1 = k with
    | none => exact absurd rfl (of_decide_eq_false ((Bool.not_eq_true _).mp (List.find?_eq_none.mp hFind _ hMem)))
    | some e =>
        have hKey : e.1 = k := of_decide_eq_true (List.find?_some (p := fun e : κ × α => decide (e.1 = k)) hFind)
        rw [eq_of_mem (List.mem_of_find?_eq_some hFind) hMem hKey]
        exact ⟨_, rfl, rfl⟩

/-- It finds nothing exactly where no entry has the key. -/
theorem find?_eq_none_iff {m : OrderedMap κ α} {k : κ} : m.find? k = none ↔ ∀ e ∈ m.entries, e.1 ≠ k := by
  rw [Option.eq_none_iff_forall_ne_some]
  constructor
  · rintro hNone e hMem rfl
    exact hNone _ (find?_eq_some_iff.mpr hMem)
  · intro hApart a hSome
    exact hApart _ (find?_eq_some_iff.mp hSome) rfl

/-- An insertion adds no entry but its own. -/
theorem mem_insertEntry {k : κ} {a : α} {e : κ × α} {l : List (κ × α)} (hMem : e ∈ insertEntry k a l) :
    e = (k, a) ∨ e ∈ l := by
  induction l with
  | nil => exact .inl (List.mem_singleton.mp hMem)
  | cons f rest ih =>
      rw [insertEntry] at hMem
      split_ifs at hMem
      · rcases List.mem_cons.mp hMem with rfl | hMem
        · exact .inr List.mem_cons_self
        · exact (ih hMem).imp_right (List.mem_cons_of_mem f)
      · exact List.mem_cons.mp hMem
      · exact (List.mem_cons.mp hMem).imp_right (List.mem_cons_of_mem f)

/-- It keeps the entries in the order of their keys. -/
theorem ordered_insertEntry (k : κ) (a : α) {l : List (κ × α)} (hOrdered : l.Pairwise fun e f => e.1 < f.1) :
    (insertEntry k a l).Pairwise fun e f => e.1 < f.1 := by
  induction hOrdered with
  | nil => exact List.pairwise_singleton _ _
  | @cons f rest hFirst hRest ih =>
      rw [insertEntry]
      split_ifs with hBelow hAbove
      · apply List.Pairwise.cons _ ih
        intro g hMem
        rcases mem_insertEntry hMem with rfl | hMem
        · exact hBelow
        · exact hFirst g hMem
      · apply List.Pairwise.cons _ (List.Pairwise.cons hFirst hRest)
        intro g hMem
        rcases List.mem_cons.mp hMem with rfl | hMem
        · exact hAbove
        · exact hAbove.trans (hFirst g hMem)
      · have hKey : k = f.1 := le_antisymm (not_lt.mp hBelow) (not_lt.mp hAbove)
        apply List.Pairwise.cons _ hRest
        rw [hKey]
        exact hFirst

def insert (m : OrderedMap κ α) (k : κ) (a : α) : OrderedMap κ α :=
  ⟨insertEntry k a m.entries, ordered_insertEntry k a m.ordered⟩

/-- The new entry takes the place of the one under its key. -/
theorem insert_perm (m : OrderedMap κ α) (k : κ) (a : α) :
    (m.insert k a).entries.Perm ((k, a) :: (m.erase k).entries) := by
  obtain ⟨l, hOrdered⟩ := m
  change (insertEntry k a l).Perm ((k, a) :: l.filter fun e => e.1 ≠ k)
  induction hOrdered with
  | nil => exact .refl _
  | @cons f rest hFirst hRest ih =>
      rw [insertEntry]
      split_ifs with hBelow hAbove
      · rw [List.filter_cons_of_pos (by simpa using hBelow.ne)]
        exact (ih.cons f).trans (.swap _ _ _)
      · rw [List.filter_eq_self.mpr]
        intro g hMem
        rcases List.mem_cons.mp hMem with rfl | hMem
        · simpa using hAbove.ne'
        · simpa using (hAbove.trans (hFirst g hMem)).ne'
      · have hKey : k = f.1 := le_antisymm (not_lt.mp hBelow) (not_lt.mp hAbove)
        rw [List.filter_cons_of_neg (by simpa using hKey.symm), List.filter_eq_self.mpr]
        intro g hMem
        rw [hKey]
        simpa using (hFirst g hMem).ne'

/-- Erasing a key leaves exactly the entries of the other keys. -/
theorem mem_erase {m : OrderedMap κ α} {k : κ} {e : κ × α} : e ∈ (m.erase k).entries ↔ e ∈ m.entries ∧ e.1 ≠ k := by
  rw [erase, List.mem_filter, decide_eq_true_iff]

/-- After an insertion its key has the new value, and all other keys have what
they had. -/
theorem mem_insert {m : OrderedMap κ α} {k : κ} {a : α} {e : κ × α} :
    e ∈ (m.insert k a).entries ↔ e = (k, a) ∨ e ∈ m.entries ∧ e.1 ≠ k := by
  rw [(m.insert_perm k a).mem_iff, List.mem_cons, mem_erase]

/-- An entry leaves by its key, and the others stay. -/
theorem erase_perm (m : OrderedMap κ α) (k : κ) :
    m.entries.Perm ((m.find? k).toList.map (fun a => (k, a)) ++ (m.erase k).entries) := by
  have hSplit := List.filter_append_perm (fun e => decide (e.1 = k)) m.entries
  have hKept : m.entries.filter (fun e => !decide (e.1 = k)) = (m.erase k).entries := by
    simp only [erase, ne_eq, decide_not]
  rw [hKept] at hSplit
  suffices hFound : m.entries.filter (fun e => decide (e.1 = k)) = (m.find? k).toList.map (fun a => (k, a)) by
    rw [hFound] at hSplit
    exact hSplit.symm
  cases hFind : m.find? k with
  | none =>
      apply List.filter_eq_nil_iff.mpr
      intro e hMem
      simpa using find?_eq_none_iff.mp hFind e hMem
  | some a =>
      have hMem := find?_eq_some_iff.mp hFind
      have hNodup : (m.entries.filter fun e => decide (e.1 = k)).Nodup :=
        (m.ordered.imp fun h hEq => h.ne (congrArg Prod.fst hEq)).filter _
      apply List.perm_singleton.mp
      apply (List.perm_ext_iff_of_nodup hNodup (List.nodup_singleton _)).mpr
      intro e
      rw [List.mem_filter, List.mem_singleton, decide_eq_true_iff]
      constructor
      · rintro ⟨hE, hKey⟩
        exact eq_of_mem hE hMem hKey
      · rintro rfl
        exact ⟨hMem, rfl⟩

/-- Erasing a key that is there takes one entry away. -/
theorem size_erase_of_find? {m : OrderedMap κ α} {k : κ} {a : α} (hFind : m.find? k = some a) :
    m.size = (m.erase k).size + 1 := by
  have hPerm := (m.erase_perm k).length_eq
  rw [hFind] at hPerm
  simpa [size] using hPerm

theorem size_erase_le (m : OrderedMap κ α) (k : κ) : (m.erase k).size ≤ m.size :=
  List.length_filter_le _ _

/-- An insertion makes the map as large as it is without the key,
and one more. -/
theorem size_insert (m : OrderedMap κ α) (k : κ) (a : α) : (m.insert k a).size = (m.erase k).size + 1 :=
  (m.insert_perm k a).length_eq

/-- So a new key adds one entry. -/
theorem size_insert_new {m : OrderedMap κ α} {k : κ} (hNew : ∀ e ∈ m.entries, e.1 ≠ k) (a : α) :
    (m.insert k a).size = m.size + 1 := by
  have hErase : (m.erase k).entries = m.entries := by
    rw [erase, List.filter_eq_self]
    exact fun e hMem => decide_eq_true (hNew e hMem)
  rw [size_insert, size, hErase, size]

/-- The first entry comes before all others in the map. -/
theorem entries_of_first? {m : OrderedMap κ α} {e : κ × α} (hFirst : m.first? = some e) :
    m.entries = e :: m.eraseFirst.entries :=
  (List.eq_cons_of_mem_head? hFirst)

/-- A map that is not empty has a first entry. -/
theorem first?_isSome {m : OrderedMap κ α} (hSize : 0 < m.size) : m.first?.isSome := by
  rw [first?, List.isSome_head?]
  exact List.length_pos_iff.mp hSize

/-- Erasing the first entry takes one away, if there is any. -/
theorem size_eraseFirst (m : OrderedMap κ α) : m.eraseFirst.size = m.size - 1 :=
  List.length_tail

/-- No key is smaller than that of the first entry. -/
theorem first?_le {m : OrderedMap κ α} {e f : κ × α} (hFirst : m.first? = some e) (hMem : f ∈ m.entries) :
    e.1 ≤ f.1 := by
  have hOrdered := m.ordered
  rw [entries_of_first? hFirst] at hOrdered hMem
  rcases List.mem_cons.mp hMem with rfl | hMem
  · exact le_refl _
  · exact (List.rel_of_pairwise_cons hOrdered hMem).le

@[simp] theorem size_map (f : α → β) (m : OrderedMap κ α) : (m.map f).size = m.size :=
  List.length_map _

/-- The first entry stays first under another value. -/
@[simp] theorem first?_map (f : α → β) (m : OrderedMap κ α) :
    (m.map f).first? = m.first?.map fun e => (e.1, f e.2) :=
  List.head?_map

@[simp] theorem eraseFirst_map (f : α → β) (m : OrderedMap κ α) : (m.map f).eraseFirst = m.eraseFirst.map f :=
  OrderedMap.ext List.map_tail.symm

@[simp] theorem find?_map (f : α → β) (m : OrderedMap κ α) (k : κ) : (m.map f).find? k = (m.find? k).map f := by
  simp only [find?, map, List.find?_map, Option.map_map]
  rfl

@[simp] theorem erase_map (f : α → β) (m : OrderedMap κ α) (k : κ) : (m.map f).erase k = (m.erase k).map f := by
  apply OrderedMap.ext
  simp only [erase, map, List.filter_map]
  rfl

/-- Values can be changed before or after they are inserted, since only the
keys decide where they go. -/
@[simp] theorem insert_map (f : α → β) (m : OrderedMap κ α) (k : κ) (a : α) :
    (m.map f).insert k (f a) = (m.insert k a).map f := by
  apply OrderedMap.ext
  change insertEntry k (f a) (m.entries.map fun e => (e.1, f e.2)) =
    (insertEntry k a m.entries).map fun e => (e.1, f e.2)
  induction m.entries with
  | nil => rfl
  | cons e rest ih =>
      simp only [insertEntry, List.map_cons]
      split_ifs with hBelow hAbove
      · rw [ih, List.map_cons]
      · rfl
      · rfl

@[simp] theorem map_empty (f : α → β) : (empty : OrderedMap κ α).map f = empty := rfl

end OrderedMap
