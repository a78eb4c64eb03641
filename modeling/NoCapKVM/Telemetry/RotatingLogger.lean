import NoCapKVM.Files.Directory
import Mathlib.Data.Set.Card

/-! `logger.cpp`: a log file that is rotated, and its backups. -/
namespace NoCapKVM.Telemetry

open Files

/-- `active_path()` and `backup_path(index)` -/
inductive LogPath where
  | active
  | backup (index : Nat)
  deriving DecidableEq

abbrev Line := List UInt8

/-- What `write_line` makes of lines. -/
def render (lines : List Line) : List UInt8 := lines.flatMap (· ++ [10])

structure RotatingLogger where
  maxBytes : Nat
  maxFiles : Nat
  one_le : 1 ≤ maxFiles
  isOpen : Bool := false
  currentSize : Nat := 0
  rotationCount : Nat := 0

namespace RotatingLogger

def create (maxBytes : Nat) (maxFiles : Int) : RotatingLogger where
  maxBytes := maxBytes
  maxFiles := if maxFiles < 1 then 1 else maxFiles.toNat
  one_le := by split <;> omega

end RotatingLogger

/-- A logger and the directory that it writes to. -/
structure Logging where
  logger : RotatingLogger
  dir : Directory LogPath UInt8

namespace Logging

/-- `open()` of a logger whose stream is not open. -/
def openLog (s : Logging) : Logging :=
  let dir := s.dir.openAppend .active
  { logger := { s.logger with isOpen := true, currentSize := ((dir .active).getD []).length }, dir := dir }

def rotate (s : Logging) : Logging :=
  let dir :=
    if s.logger.maxFiles > 1 then
      let dir := s.dir.remove (.backup (s.logger.maxFiles - 1))
      let dir := dir.shift .backup (s.logger.maxFiles - 2)
      dir.rename .active (.backup 1)
    else s.dir
  { logger := { s.logger with currentSize := 0, rotationCount := s.logger.rotationCount + 1 },
    dir := dir.truncate .active }

def writeLine (s : Logging) (line : Line) : Logging :=
  if !s.logger.isOpen then s
  else
    let needed := line.length + 1
    let s := if s.logger.currentSize > 0 ∧ s.logger.currentSize + needed > s.logger.maxBytes then s.rotate else s
    { logger := { s.logger with currentSize := s.logger.currentSize + needed },
      dir := s.dir.append .active (line ++ [10]) }

inductive Call where
  | writeLine (line : Line)
  | reopen

def Call.line? : Call → Option Line
  | .writeLine line => some line
  | .reopen => none

/-- Re-opening is done by a new logger with the same parameters. -/
def call (maxBytes : Nat) (maxFiles : Int) (s : Logging) : Call → Logging
  | .writeLine line => s.writeLine line
  | .reopen => openLog { s with logger := .create maxBytes maxFiles }

/-- Nothing is open, and the directory is empty. -/
def start (maxBytes : Nat) (maxFiles : Int) : Logging where
  logger := .create maxBytes maxFiles
  dir _ := none

end Logging

open Logging

/-- The lines that are written: before the first `open` there are none. -/
def written : List Logging.Call → List Line
  | [] => []
  | .writeLine _ :: calls => written calls
  | .reopen :: calls => calls.filterMap Call.line?

/-- The active file is the first one, and the backups follow. -/
def LogPath.nth : Nat → LogPath
  | 0 => .active
  | i + 1 => .backup (i + 1)

structure Holds (dir : Directory LogPath UInt8) (files : List (List Line)) : Prop where
  nth : ∀ i, dir (.nth i) = files[i]?.map render
  zero : dir (.backup 0) = none

/-- The active file is none of the backups. -/
theorem active_ne_backup (i : Nat) : LogPath.active ≠ .backup i := nofun

/-- Two backups have two names. -/
theorem backup_injective : Function.Injective LogPath.backup :=
  fun _ _ h => LogPath.backup.inj h

section Files

variable {dir : Directory LogPath UInt8} {files : List (List Line)} {f : List Line}

/-- The backups hold the files behind the first, in their order. -/
theorem Holds.backup (h : Holds dir files) (i : Nat) : dir (.backup (i + 1)) = files[i + 1]?.map render :=
  h.nth (i + 1)

/-- Only the active file is changed. -/
theorem Holds.update {bytes : List UInt8} {rest : List (List Line)}
    (hBackups : ∀ i, dir (.backup (i + 1)) = rest[i]?.map render)
    (hZero : dir (.backup 0) = none) (hBytes : bytes = render f) :
    Holds (Function.update dir .active (some bytes)) (f :: rest) := by
  refine ⟨?_, ?_⟩
  · intro i
    cases i with
    | zero => rw [LogPath.nth, Function.update_self, hBytes]; rfl
    | succ i =>
        rw [LogPath.nth, Function.update_of_ne (by simp), hBackups]
        rfl
  · rw [Function.update_of_ne (by simp), hZero]

/-- Opening the active file makes it if it is not there, and loses nothing. -/
theorem Holds.openAppend (h : Holds dir files) :
    Holds (dir.openAppend .active) (files.headD [] :: files.tail) := by
  apply Holds.update _ h.zero
  · have hActive := h.nth 0
    rw [LogPath.nth] at hActive
    rw [hActive]
    cases files <;> rfl
  · intro i
    rw [h.backup]
    cases files <;> rfl

/-- A line that is written ends the first file. -/
theorem Holds.append (h : Holds dir (f :: files)) (line : Line) :
    Holds (dir.append .active (line ++ [10])) ((f ++ [line]) :: files) := by
  have hActive : dir .active = some (render f) := h.nth 0
  rw [Directory.append, hActive]
  apply Holds.update _ h.zero
  · simp [render]
  · exact h.backup

/-- A rotation makes an empty first file, moves every other one back by one,
and drops the last if there are too many. -/
theorem Holds.rotate {s : Logging} (h : Holds s.dir files) (hCount : files.length ≤ s.logger.maxFiles) :
    Holds s.rotate.dir ([] :: files.take (s.logger.maxFiles - 1)) := by
  have hOne := s.logger.one_le
  simp only [Logging.rotate]
  generalize s.logger.maxFiles = n at hCount hOne ⊢
  by_cases hMany : n > 1
  · rw [if_pos hMany]
    have hFree : s.dir.remove (.backup (n - 1)) (.backup (n - 2 + 1)) = none := by
      rw [show n - 2 + 1 = n - 1 by omega, Directory.remove, Function.update_self]
    have hKept {path : LogPath} (hPath : path ≠ .backup (n - 1)) : s.dir.remove (.backup (n - 1)) path = s.dir path := by
      rw [Directory.remove, Function.update_of_ne hPath]
    obtain ⟨hFirst, hMoved, hOther⟩ := Directory.shift_spec backup_injective hFree
    have hNames {i : Nat} (hI : ¬(1 ≤ i ∧ i ≤ n - 2 + 1)) :
        ∀ j, 1 ≤ j → j ≤ n - 2 + 1 → LogPath.backup i ≠ .backup j :=
      fun j hLow hHigh hEq => hI (LogPath.backup.inj hEq ▸ ⟨hLow, hHigh⟩)
    refine Holds.update ?_ ?_ rfl
    · intro i
      rw [List.getElem?_take]
      by_cases hNewest : i = 0
      · subst hNewest
        rw [Directory.rename_to hFirst, hOther .active (fun _ _ _ => active_ne_backup _), hKept (active_ne_backup _),
          if_pos (by omega)]
        exact h.nth 0
      rw [Directory.rename_other (active_ne_backup _).symm fun h => hNewest (Nat.succ.inj (LogPath.backup.inj h))]
      by_cases hInside : i < n - 1
      · obtain ⟨j, rfl⟩ := Nat.exists_eq_succ_of_ne_zero hNewest
        rw [hMoved (j + 1) (by omega) (by omega), hKept (fun h => absurd (LogPath.backup.inj h) (by omega)), if_pos hInside]
        exact h.backup j
      · -- behind the oldest backup that is kept there was nothing
        rw [hOther _ (hNames (by omega)), hKept (fun h => absurd (LogPath.backup.inj h) (by omega)), if_neg hInside,
          h.backup, List.getElem?_eq_none (by omega)]
    · rw [Directory.rename_other (active_ne_backup _).symm (fun h => absurd (LogPath.backup.inj h) (by omega)),
        hOther _ (hNames (by omega)), hKept (fun h => absurd (LogPath.backup.inj h) (by omega))]
      exact h.zero
  · rw [if_neg hMany]
    refine Holds.update ?_ h.zero rfl
    intro i
    rw [h.backup, List.getElem?_eq_none (by omega), show n - 1 = 0 by omega]
    rfl

end Files

/-- What is written in two parts is in the file in this order. -/
theorem render_append (lines more : List Line) : render (lines ++ more) = render lines ++ render more :=
  List.flatMap_append

/-- A file is empty only without any line. -/
theorem render_eq_nil {lines : List Line} (h : (render lines).length = 0) : lines = [] := by
  cases lines with
  | nil => rfl
  | cons line lines => simp [render] at h

/-- Whole lines, and no more than fit, but for a line that is too
long on its own. -/
def Bounded (maxBytes : Nat) (file : List Line) : Prop :=
  (render file).length ≤ maxBytes ∨ ∃ line, file = [line]

/-- What the directory holds after the given lines were written. -/
structure Kept (maxBytes : Nat) (maxFiles : Int) (lines : List Line) (s : Logging) (files : List (List Line)) : Prop where
  sameBytes : s.logger.maxBytes = maxBytes
  sameFiles : s.logger.maxFiles = (RotatingLogger.create maxBytes maxFiles).maxFiles
  holds : Holds s.dir files
  count : files.length ≤ s.logger.maxFiles
  bounded : ∀ file ∈ files, Bounded maxBytes file
  suffix : files.reverse.flatten <:+ lines
  opened : s.logger.isOpen = true ↔ files ≠ []
  size : ∀ file, files.head? = some file → s.logger.currentSize = (render file).length

section Runs

variable {maxBytes : Nat} {maxFiles : Int} {lines : List Line} {s : Logging} {files : List (List Line)}

/-- A new logger goes on in the file that it finds. -/
theorem Kept.reopen (h : Kept maxBytes maxFiles lines s files) :
    Kept maxBytes maxFiles lines (Logging.call maxBytes maxFiles s .reopen) (files.headD [] :: files.tail) := by
  have hActive : (s.dir.openAppend .active) .active = some (render (files.headD [])) := by
    exact h.holds.openAppend.nth 0
  have hLength : (files.headD [] :: files.tail).length ≤ max 1 files.length := by
    cases files <;> simp
  refine ⟨rfl, rfl, h.holds.openAppend, ?_, ?_, ?_, ?_, ?_⟩
  · have hOne := (RotatingLogger.create maxBytes maxFiles).one_le
    have hCount := h.sameFiles ▸ h.count
    exact hLength.trans (Nat.max_le.mpr ⟨hOne, hCount⟩)
  · intro file hMem
    cases files with
    | nil =>
        obtain rfl := List.mem_singleton.mp hMem
        exact .inl (Nat.zero_le maxBytes)
    | cons first rest => exact h.bounded file hMem
  · cases files with
    | nil => exact List.nil_suffix
    | cons first rest => exact h.suffix
  · exact ⟨fun _ => List.cons_ne_nil _ _, fun _ => rfl⟩
  · rintro _ ⟨⟩
    show (((s.dir.openAppend .active) .active).getD []).length = _
    rw [hActive]
    rfl

/-- A line that is appended to the active file, where it fits or is
the only one. -/
theorem Kept.append {file : List Line} {rest : List (List Line)} (h : Kept maxBytes maxFiles lines s (file :: rest))
    {line : Line} (hFits : file = [] ∨ s.logger.currentSize + (line.length + 1) ≤ maxBytes) :
    Kept maxBytes maxFiles (lines ++ [line])
      { logger := { s.logger with currentSize := s.logger.currentSize + (line.length + 1) },
        dir := s.dir.append .active (line ++ [10]) } ((file ++ [line]) :: rest) := by
  have hSize : s.logger.currentSize + (line.length + 1) = (render (file ++ [line])).length := by
    rw [h.size file rfl, render_append, List.length_append]
    simp [render]
  refine ⟨h.sameBytes, h.sameFiles, h.holds.append line, h.count, ?_, ?_, ?_, ?_⟩
  · intro file' hMem
    rcases List.mem_cons.mp hMem with rfl | hMem
    · rcases hFits with rfl | hFits
      · exact .inr ⟨line, rfl⟩
      · exact .inl (hSize ▸ hFits)
    · exact h.bounded file' (List.mem_cons_of_mem file hMem)
  · obtain ⟨older, hOlder⟩ := h.suffix
    refine ⟨older, ?_⟩
    rw [← hOlder]
    simp
  · exact ⟨fun _ => List.cons_ne_nil _ _, fun _ => h.opened.mpr (List.cons_ne_nil _ _)⟩
  · rintro _ ⟨⟩
    exact hSize

/-- A rotation loses at most the oldest lines. -/
theorem Kept.rotate (h : Kept maxBytes maxFiles lines s files) (hOpen : files ≠ []) :
    Kept maxBytes maxFiles lines s.rotate ([] :: files.take (s.logger.maxFiles - 1)) := by
  have hOne := s.logger.one_le
  refine ⟨h.sameBytes, h.sameFiles, h.holds.rotate h.count, ?_, ?_, ?_, ?_, ?_⟩
  · rw [List.length_cons, List.length_take]
    show min (s.logger.maxFiles - 1) files.length + 1 ≤ s.logger.maxFiles
    omega
  · intro file hMem
    rcases List.mem_cons.mp hMem with rfl | hMem
    · exact .inl (Nat.zero_le maxBytes)
    · exact h.bounded file (List.mem_of_mem_take hMem)
  · refine List.IsSuffix.trans ?_ h.suffix
    refine ⟨(files.drop (s.logger.maxFiles - 1)).reverse.flatten, ?_⟩
    rw [List.reverse_cons, List.flatten_append, ← List.append_assoc, ← List.flatten_append, ← List.reverse_append,
      List.take_append_drop]
    simp
  · exact ⟨fun _ => List.cons_ne_nil _ _, fun _ => h.opened.mpr hOpen⟩
  · rintro _ ⟨⟩
    rfl

/-- A write puts its line at the end of the active file, whether it rotates
before or not. -/
theorem Kept.writeLine (h : Kept maxBytes maxFiles lines s files) (hOpen : files ≠ []) (line : Line) :
    ∃ earlier rest, Kept maxBytes maxFiles (lines ++ [line]) (s.writeLine line) ((earlier ++ [line]) :: rest) := by
  have hIsOpen := h.opened.mpr hOpen
  simp only [Logging.writeLine, hIsOpen, Bool.not_true, Bool.false_eq_true, if_false]
  by_cases hFull : s.logger.currentSize > 0 ∧ s.logger.currentSize + (line.length + 1) > s.logger.maxBytes
  · rw [if_pos hFull]
    exact ⟨[], _, (h.rotate hOpen).append (.inl rfl)⟩
  · rw [if_neg hFull]
    obtain ⟨file, rest, rfl⟩ := List.exists_cons_of_ne_nil hOpen
    refine ⟨file, rest, h.append ?_⟩
    rw [h.sameBytes] at hFull
    by_cases hEmpty : s.logger.currentSize = 0
    · exact .inl (render_eq_nil (h.size file rfl ▸ hEmpty))
    · exact .inr (by omega)

end Runs

/-- Opening writes no line. -/
theorem written_reopen (calls : List Logging.Call) : written (calls ++ [.reopen]) = written calls := by
  induction calls with
  | nil => rfl
  | cons c calls ih =>
      cases c with
      | writeLine line => exact ih
      | reopen => simp [written, Call.line?]

/-- Once a logger is open, a line that is given to it is written. -/
theorem written_open {calls : List Logging.Call} (h : .reopen ∈ calls) (line : Line) :
    written (calls ++ [.writeLine line]) = written calls ++ [line] := by
  induction calls with
  | nil => cases h
  | cons c calls ih =>
      cases c with
      | writeLine other =>
          rcases List.mem_cons.mp h with hFirst | hRest
          · cases hFirst
          · exact ih hRest
      | reopen => simp [written, Call.line?]

/-- Before that it is not. -/
theorem written_closed {calls : List Logging.Call} (h : .reopen ∉ calls) (line : Line) :
    written (calls ++ [.writeLine line]) = written calls := by
  induction calls with
  | nil => rfl
  | cons c calls ih =>
      cases c with
      | writeLine other => exact ih fun hMem => h (List.mem_cons_of_mem _ hMem)
      | reopen => exact absurd List.mem_cons_self h

/-- At first the directory holds nothing, and no line was written. -/
theorem start_kept (maxBytes : Nat) (maxFiles : Int) : Kept maxBytes maxFiles [] (start maxBytes maxFiles) [] :=
  ⟨rfl, rfl, ⟨fun _ => rfl, rfl⟩, Nat.zero_le _, nofun, List.nil_suffix, ⟨nofun, fun h => absurd rfl h⟩, nofun⟩

/-- The active file ends with the last of the lines. -/
def EndsWithLast (lines : List Line) (files : List (List Line)) : Prop :=
  ∀ line ∈ lines.getLast?, ∃ earlier rest, files = (earlier ++ [line]) :: rest

/-- After any calls, the directory holds the last lines that were written, in
files that keep the bound, and the active one ends with the newest. -/
theorem run_kept (maxBytes : Nat) (maxFiles : Int) (calls : List Logging.Call) :
    ∃ files, (files ≠ [] ↔ .reopen ∈ calls) ∧ EndsWithLast (written calls) files ∧
      Kept maxBytes maxFiles (written calls) (calls.foldl (call maxBytes maxFiles) (start maxBytes maxFiles)) files := by
  induction calls using List.reverseRecOn with
  | nil => exact ⟨[], ⟨fun h => absurd rfl h, nofun⟩, by simp [EndsWithLast, written], start_kept maxBytes maxFiles⟩
  | append_singleton calls c ih =>
      obtain ⟨files, hOpen, hLast, hKept⟩ := ih
      rw [List.foldl_append, List.foldl_cons, List.foldl_nil]
      generalize calls.foldl (call maxBytes maxFiles) (start maxBytes maxFiles) = s at hKept ⊢
      cases c with
      | reopen =>
          rw [written_reopen]
          refine ⟨_, ⟨fun _ => by simp, fun _ => List.cons_ne_nil _ _⟩, fun line hLine => ?_, hKept.reopen⟩
          obtain ⟨earlier, rest, rfl⟩ := hLast line hLine
          exact ⟨earlier, rest, rfl⟩
      | writeLine line =>
          have hMem : .reopen ∈ calls ++ [Logging.Call.writeLine line] ↔ .reopen ∈ calls := by simp
          rw [hMem]
          by_cases hFiles : files = []
          · -- a logger that is not open
            have hClosed : s.logger.isOpen = false := by
              by_contra hIsOpen
              exact hKept.opened.mp (by simpa using hIsOpen) hFiles
            rw [written_closed (fun h => hOpen.mpr h hFiles)]
            refine ⟨files, hOpen, hLast, ?_⟩
            simp only [Logging.call, Logging.writeLine, hClosed, Bool.not_false, if_true]
            exact hKept
          · obtain ⟨earlier, rest, hKept'⟩ := hKept.writeLine hFiles line
            rw [written_open (hOpen.mp hFiles)]
            refine ⟨_, ⟨fun _ => hOpen.mp hFiles, fun _ => List.cons_ne_nil _ _⟩, fun last hMem => ?_, hKept'⟩
            rw [List.getLast?_concat] at hMem
            obtain rfl := Option.some.inj hMem
            exact ⟨earlier, rest, rfl⟩

/-- No more files than asked for, each with whole lines and within its bound,
and together they are the last lines that were written, in order from the
oldest backup to the active file. The line that was written last is there: the
active file ends with it. -/
theorem rotation_keeps_suffix (maxBytes : Nat) (maxFiles : Int) (calls : List Logging.Call) :
    let s := calls.foldl (call maxBytes maxFiles) (start maxBytes maxFiles)
    ∃ files : List (List Line), Holds s.dir files ∧ {path | (s.dir path).isSome}.encard ≤ files.length ∧
      (files.length : Int) ≤ max 1 maxFiles ∧ (∀ file ∈ files, Bounded maxBytes file) ∧
      files.reverse.flatten <:+ written calls ∧
      ∀ line ∈ (written calls).getLast?, ∃ earlier rest, files = (earlier ++ [line]) :: rest := by
  intro s
  obtain ⟨files, -, hLast, hKept⟩ := run_kept maxBytes maxFiles calls
  refine ⟨files, hKept.holds, ?_, ?_, hKept.bounded, hKept.suffix, hLast⟩
  · have hNames : {path | (s.dir path).isSome} ⊆ Set.image LogPath.nth (Finset.range files.length) := by
      intro path hPath
      obtain ⟨i, rfl⟩ : ∃ i, path = .nth i := by
        cases path with
        | active => exact ⟨0, rfl⟩
        | backup i =>
            cases i with
            | zero =>
                rw [Set.mem_ofPred_eq, hKept.holds.zero] at hPath
                cases hPath
            | succ i => exact ⟨i + 1, rfl⟩
      rw [Set.mem_ofPred_eq, hKept.holds.nth, Option.isSome_map] at hPath
      refine ⟨i, ?_, rfl⟩
      simpa using hPath
    calc
      _ ≤ (Set.image LogPath.nth (Finset.range files.length)).encard := Set.encard_le_encard hNames
      _ ≤ (Finset.range files.length : Set Nat).encard := Set.encard_image_le _ _
      _ = files.length := by rw [Set.encard_coe_eq_coe_finsetCard, Finset.card_range]
  · have hCount := hKept.sameFiles ▸ hKept.count
    simp only [RotatingLogger.create] at hCount
    split at hCount <;> omega

end NoCapKVM.Telemetry
