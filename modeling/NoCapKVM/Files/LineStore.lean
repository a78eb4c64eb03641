import Mathlib.Data.Set.Finite.Lattice
import NoCapKVM.Text.Lines

/-! A finite map that is kept in a text file, a line for each entry. A change writes the whole file
again, in whatever order the entries come. A restart reads it. -/
namespace Files

open Text

variable {κ α : Type}

/-- The entries of `m`, each once, in some order. -/
structure Enumerates (order : List (κ × α)) (m : κ → Option α) : Prop where
  nodup : (order.map Prod.fst).Nodup
  mem_iff : ∀ k a, (k, a) ∈ order ↔ m k = some a

/-- A map with finitely many entries has an order for them. -/
theorem exists_enumerates {m : κ → Option α} (h : {k | m k ≠ none}.Finite) : ∃ order, Enumerates order m := by
  obtain ⟨keys, hNodup, hKeys⟩ : ∃ keys : List κ, keys.Nodup ∧ ∀ k, k ∈ keys ↔ m k ≠ none :=
    ⟨h.toFinset.toList, h.toFinset.nodup_toList, fun k => by simp⟩
  have hFirst (e : κ × α) (k : κ) (he : e ∈ (m k).map (k, ·)) : e.1 = k := by
    obtain ⟨a, -, rfl⟩ := Option.map_eq_some_iff.mp he
    rfl
  refine ⟨keys.filterMap fun k => (m k).map (k, ·), ?_, ?_⟩
  · rw [List.Nodup, List.pairwise_map]
    refine List.Pairwise.filterMap _ ?_ hNodup
    intro k k' hNe e he e' he'
    rw [hFirst e k he, hFirst e' k' he']
    exact hNe
  · intro k a
    rw [List.mem_filterMap]
    constructor
    · rintro ⟨k', -, hMap⟩
      obtain ⟨a', hSome, hPair⟩ := Option.map_eq_some_iff.mp hMap
      cases hPair
      exact hSome
    · intro hSome
      refine ⟨k, (hKeys k).mpr (by simp [hSome]), ?_⟩
      rw [hSome]
      rfl

section Put

variable [DecidableEq κ] {order : List (κ × α)} {k : κ} {a : α}

def putAll (order : List (κ × α)) (m : κ → Option α) : κ → Option α :=
  order.foldl (fun m e => Function.update m e.1 (some e.2)) m

theorem putAll_of_notMem (h : k ∉ order.map Prod.fst) (m : κ → Option α) : putAll order m k = m k := by
  induction order generalizing m with
  | nil => rfl
  | cons e order ih =>
    rw [List.map_cons, List.mem_cons, not_or] at h
    calc
      _ = Function.update m e.1 (some e.2) k := ih h.2 _
      _ = _ := Function.update_of_ne h.1 _ _

theorem putAll_of_mem (hNodup : (order.map Prod.fst).Nodup) (h : (k, a) ∈ order) (m : κ → Option α) :
    putAll order m k = some a := by
  induction order generalizing m with
  | nil => cases h
  | cons e order ih =>
    obtain ⟨hNew, hRest⟩ := List.nodup_cons.mp hNodup
    rcases List.mem_cons.mp h with rfl | h
    · calc
        _ = Function.update m k (some a) k := putAll_of_notMem hNew _
        _ = _ := Function.update_self ..
    · exact ih hRest h _

/-- Any order gives the same map. -/
theorem Enumerates.putAll_eq {m : κ → Option α} (h : Enumerates order m) : putAll order (fun _ => none) = m := by
  funext k
  cases hEntry : m k with
  | some a => exact putAll_of_mem h.nodup ((h.mem_iff k a).mpr hEntry) _
  | none =>
    have hNot : k ∉ order.map Prod.fst := by
      intro hMem
      obtain ⟨⟨_, a⟩, hIn, rfl⟩ := List.mem_map.mp hMem
      have hSome := (h.mem_iff _ a).mp hIn
      rw [hEntry] at hSome
      cases hSome
    exact putAll_of_notMem hNot _

theorem finite_update {m : κ → Option α} (h : {k | m k ≠ none}.Finite) (k : κ) (a : Option α) :
    {k' | Function.update m k a k' ≠ none}.Finite := by
  refine (h.insert k).subset ?_
  intro k' hk'
  by_cases hKey : k' = k
  · exact Or.inl hKey
  · refine Or.inr ?_
    rwa [Set.mem_ofPred_eq, Function.update_of_ne hKey] at hk'

end Put

/-- How an entry is written and read. `line` is what the writer puts out,
whatever base it finds set. -/
structure LineFormat (κ α : Type) where
  write : OStream → κ × α → OStream
  read : List Char → Option (κ × α)
  line : κ × α → List Char
  text_write : ∀ out entry, (write out entry).text = out.text ++ (line entry ++ ['\n'])
  newline_notMem : ∀ entry, '\n' ∉ line entry
  read_line : ∀ entry, read (line entry) = some entry

namespace LineFormat

variable (format : LineFormat κ α)

def save (order : List (κ × α)) : List Char := (order.foldl format.write {}).text

theorem text_foldl_write (order : List (κ × α)) (out : OStream) :
    (order.foldl format.write out).text = out.text ++ order.flatMap fun e => format.line e ++ ['\n'] := by
  induction order generalizing out with
  | nil => simp
  | cons e order ih =>
    rw [List.foldl_cons, ih, format.text_write, List.flatMap_cons, List.append_assoc]

theorem getlines_save (order : List (κ × α)) :
    IStream.getlines ⟨format.save order, false⟩ = order.map format.line := by
  unfold save
  rw [text_foldl_write, List.nil_append]
  induction order with
  | nil => exact IStream.getlines_nil
  | cons e order ih =>
    rw [List.flatMap_cons, List.append_assoc, List.singleton_append,
      IStream.getlines_append (format.newline_notMem e), ih, List.map_cons]

variable [DecidableEq κ]

/-- A line that does not read is passed over. -/
def keep (m : κ → Option α) (line : List Char) : κ → Option α :=
  match format.read line with
  | some (k, a) => Function.update m k (some a)
  | none => m

def load (file : List Char) : κ → Option α :=
  (IStream.getlines ⟨file, false⟩).foldl format.keep fun _ => none

theorem keep_line (m : κ → Option α) (e : κ × α) :
    format.keep m (format.line e) = Function.update m e.1 (some e.2) := by
  unfold keep
  rw [format.read_line]

/-- What is saved in some order is loaded as it was. -/
theorem load_save {order : List (κ × α)} {m : κ → Option α} (h : Enumerates order m) :
    format.load (format.save order) = m := by
  calc
    _ = putAll order fun _ => none := by
      unfold load putAll
      rw [getlines_save, List.foldl_map]
      simp only [keep_line]
    _ = m := h.putAll_eq

theorem finite_load (file : List Char) : {k | format.load file k ≠ none}.Finite := by
  have hFold (lines : List (List Char)) (m : κ → Option α) (hM : {k | m k ≠ none}.Finite) :
      {k | lines.foldl format.keep m k ≠ none}.Finite := by
    induction lines generalizing m with
    | nil => exact hM
    | cons line lines ih =>
      refine ih (format.keep m line) ?_
      cases hRead : format.read line with
      | none => simpa only [keep, hRead] using hM
      | some e => simpa only [keep, hRead] using finite_update hM e.1 (some e.2)
  exact hFold _ _ (by simp)

end LineFormat

structure Store (κ α : Type) where
  entries : κ → Option α
  file : List Char

inductive Call (κ α : Type) where
  | put (k : κ) (a : α)
  | erase (k : κ)
  | restart

variable [DecidableEq κ]

/-- What a call is for. -/
def Call.apply : Call κ α → (κ → Option α) → κ → Option α
  | .put k a, m => Function.update m k (some a)
  | .erase k, m => Function.update m k none
  | .restart, m => m

namespace LineFormat

variable (format : LineFormat κ α)

def start (file : List Char) : Store κ α := ⟨format.load file, file⟩

inductive Step : Store κ α → Call κ α → Store κ α → Prop where
  | put {s : Store κ α} {k : κ} {a : α} {order : List (κ × α)}
      (hOrder : Enumerates order (Function.update s.entries k (some a))) :
      Step s (.put k a) ⟨Function.update s.entries k (some a), format.save order⟩
  | erase {s : Store κ α} {k : κ} {order : List (κ × α)}
      (hOrder : Enumerates order (Function.update s.entries k none)) :
      Step s (.erase k) ⟨Function.update s.entries k none, format.save order⟩
  | restart {s : Store κ α} : Step s .restart (format.start s.file)

/-- A store that started from `file`, after some calls. -/
inductive Runs (file : List Char) : List (Call κ α) → Store κ α → Prop where
  | start : Runs file [] (format.start file)
  | step {calls : List (Call κ α)} {s s' : Store κ α} {call : Call κ α}
      (prior : Runs file calls s) (last : format.Step s call s') : Runs file (calls ++ [call]) s'

variable {format} {file : List Char} {s s' : Store κ α} {call : Call κ α} {calls : List (Call κ α)}

/-- One call does what it is for, and leaves the file right. -/
theorem Step.agrees (step : format.Step s call s') (h : format.load s.file = s.entries) :
    format.load s'.file = s'.entries ∧ s'.entries = call.apply s.entries := by
  cases step with
  | put hOrder => exact ⟨format.load_save hOrder, rfl⟩
  | erase hOrder => exact ⟨format.load_save hOrder, rfl⟩
  | restart => exact ⟨rfl, h⟩

/-- The file always holds the entries that the calls have left. -/
theorem Runs.agrees (run : format.Runs file calls s) :
    format.load s.file = s.entries ∧ s.entries = calls.foldl (fun m call => call.apply m) (format.load file) := by
  induction run with
  | start => exact ⟨rfl, rfl⟩
  | step prior last ih =>
    obtain ⟨hFile, hEntries⟩ := ih
    obtain ⟨hFile', hEntries'⟩ := last.agrees hFile
    refine ⟨hFile', ?_⟩
    rw [hEntries', hEntries, List.foldl_concat]

/-- Every call can be made in every state that is reached. -/
theorem Runs.exists_step (run : format.Runs file calls s) (call : Call κ α) : ∃ s', format.Step s call s' := by
  have hFinite : {k | s.entries k ≠ none}.Finite := by
    rw [← run.agrees.1]
    exact format.finite_load s.file
  cases call with
  | put k a =>
    obtain ⟨order, hOrder⟩ := exists_enumerates (finite_update hFinite k (some a))
    exact ⟨_, .put hOrder⟩
  | erase k =>
    obtain ⟨order, hOrder⟩ := exists_enumerates (finite_update hFinite k none)
    exact ⟨_, .erase hOrder⟩
  | restart => exact ⟨_, .restart⟩

end LineFormat
end Files
