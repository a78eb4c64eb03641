import NoCapKVM.Discovery.PeerFile
import NoCapKVM.Topology.Crossing

/-! The file of `arrangement.cpp`: one device a line, and where its screens sit. -/
namespace NoCapKVM.Topology

open Text Files

def directionChar : Direction → Char
  | .left => 'L'
  | .right => 'R'
  | .up => 'U'
  | .down => 'D'

def directionFromChar : Char → Option Direction
  | 'L' => some .left
  | 'R' => some .right
  | 'U' => some .up
  | 'D' => some .down
  | _ => none

/-- An entry without its device. -/
structure Placement where
  direction : Direction
  offset : Int32
  deriving DecidableEq

/-- `out << std::hex << device_id << " " << direction_char(entry.direction) << " " << std::dec << entry.offset << "\n"` -/
def writePlacement (out : OStream) (e : UInt64 × Placement) : OStream :=
  (((((out.hex.uint64 e.1).put [' ']).put [directionChar e.2.direction]).put [' ']).dec.int32 e.2.offset).put ['\n']

/-- `iss >> std::hex >> device_id >> std::dec >> dir_str >> offset`, and then
the direction. -/
def readPlacement (line : List Char) : Option (UInt64 × Placement) :=
  let (deviceId, iss) := IStream.hexUInt64 ⟨line, false⟩
  let (dirStr, iss) := iss.word
  let (offset, _) := iss.int
  match deviceId, dirStr, offset with
  | some deviceId, some [dir], some offset =>
      (directionFromChar dir).map fun direction => (deviceId, ⟨direction, Int32.ofInt offset⟩)
  | _, _, _ => none

def placementLine (e : UInt64 × Placement) : List Char :=
  Nat.toDigits 16 e.1.toNat ++ ' ' :: directionChar e.2.direction :: ' ' ::
    IStream.signedDigits (e.2.offset.toInt < 0) e.2.offset.toInt.natAbs

theorem directionFromChar_directionChar (d : Direction) : directionFromChar (directionChar d) = some d := by
  cases d <;> rfl

theorem newline_notMem_placementLine (e : UInt64 × Placement) : '\n' ∉ placementLine e := by
  obtain ⟨deviceId, direction, offset⟩ := e
  have hDirection : '\n' ≠ directionChar direction := by cases direction <;> decide
  intro h
  rcases List.mem_append.mp h with hId | hRest
  · exact absurd (isHexDigit_toDigits _ hId) (by decide)
  · simp only [List.mem_cons] at hRest
    rcases hRest with hSpace | hChar | hSpace | hOffset
    · cases hSpace
    · exact hDirection hChar
    · cases hSpace
    · exact IStream.newline_notMem_signedDigits _ _ hOffset

/-- Every offset comes back, a negative one too. -/
theorem int_offset (offset : Int32) :
    IStream.int ⟨' ' :: IStream.signedDigits (offset.toInt < 0) offset.toInt.natAbs, false⟩ =
      (some offset.toInt, ⟨[], false⟩) := by
  have hGap : ∀ c ∈ [' '], isSpace c := by simp [isSpace]
  have hRead := @IStream.int_before [' '] [] offset.toInt hGap (by simp) offset.le_toInt
    (Int.le_of_lt_add_one offset.toInt_lt)
  rwa [List.append_nil] at hRead

theorem readPlacement_placementLine (e : UInt64 × Placement) : readPlacement (placementLine e) = some e := by
  obtain ⟨deviceId, direction, offset⟩ := e
  let tail := ' ' :: IStream.signedDigits (offset.toInt < 0) offset.toInt.natAbs
  have hId : IStream.hexUInt64 ⟨placementLine (deviceId, ⟨direction, offset⟩), false⟩ =
      (some deviceId, ⟨' ' :: directionChar direction :: tail, false⟩) :=
    @IStream.hexUInt64_before [] _ deviceId (by simp) (by simp [isSpace])
  have hWord : IStream.word ⟨' ' :: directionChar direction :: tail, false⟩ =
      (some [directionChar direction], ⟨tail, false⟩) := by
    have hChar : ∀ c ∈ [directionChar direction], !isSpace c := by
      intro c hc
      obtain rfl := List.mem_singleton.mp hc
      cases direction <;> decide
    exact @IStream.word_before [' '] tail [directionChar direction] (by simp [isSpace]) hChar (by simp)
      (by simp [tail, isSpace])
  simp only [readPlacement, hId, hWord, tail, int_offset, directionFromChar_directionChar, Option.map_some,
    Int32.ofInt_toInt]

def placementFormat : LineFormat UInt64 Placement where
  write := writePlacement
  read := readPlacement
  line := placementLine
  text_write out e := by
    simp [writePlacement, placementLine, OStream.uint64, OStream.int32, OStream.put, OStream.hex, OStream.dec]
  newline_notMem := newline_notMem_placementLine
  read_line := readPlacement_placementLine

namespace ScreenArrangement

def get (s : Store UInt64 Placement) (deviceId : UInt64) : Option ArrangementEntry :=
  (s.entries deviceId).map fun placement => ⟨deviceId, placement.direction, placement.offset.toInt⟩

def set (deviceId : UInt64) (direction : Direction) (offset : Int32) : Call UInt64 Placement :=
  .put deviceId ⟨direction, offset⟩

def forget (deviceId : UInt64) : Call UInt64 Placement := .erase deviceId

variable {file : List Char} {calls : List (Call UInt64 Placement)} {s s' : Store UInt64 Placement} {deviceId : UInt64}

theorem get_start (run : placementFormat.Runs file calls s) (d : UInt64) :
    get (placementFormat.start s.file) d = get s d := by
  unfold get LineFormat.start
  rw [run.agrees.1]

theorem get_set {direction : Direction} {offset : Int32} (run : placementFormat.Runs file calls s)
    (step : placementFormat.Step s (set deviceId direction offset) s') (d : UInt64) :
    get (placementFormat.start s'.file) d = if d = deviceId then some ⟨d, direction, offset.toInt⟩ else get s d := by
  rw [get_start (run.step step)]
  unfold get
  rw [(step.agrees run.agrees.1).2]
  simp only [set, Call.apply, Function.update_apply]
  split <;> rfl

theorem get_forget (run : placementFormat.Runs file calls s) (step : placementFormat.Step s (forget deviceId) s')
    (d : UInt64) : get (placementFormat.start s'.file) d = if d = deviceId then none else get s d := by
  rw [get_start (run.step step)]
  unfold get
  rw [(step.agrees run.agrees.1).2]
  simp only [forget, Call.apply, Function.update_apply]
  split <;> rfl

end ScreenArrangement

/-- Both stores come back from their files as they were, after any calls and
restarts. The trust store of a connection is the one on its file, and after a
restart the arrangement answers with what was set and not forgotten. -/
theorem stores_survive_restarts :
    (∀ (file : List Char) (calls : List (Call UInt64 (Discovery.Key32 UInt8))) (s : Store UInt64 (Discovery.Key32 UInt8)),
      Discovery.peerFormat.Runs file calls s →
        (Discovery.peerFormat.start s.file).entries = s.entries ∧
        s.entries = calls.foldl (fun entries call => call.apply entries) (Discovery.peerFormat.load file) ∧
        Discovery.KnownPeers.ofStore s = calls.foldl Discovery.KnownPeers.afterCall
          (Discovery.KnownPeers.ofStore (Discovery.peerFormat.start file))) ∧
    ∀ (file : List Char) (calls : List (Call UInt64 Placement)) (s : Store UInt64 Placement),
      placementFormat.Runs file calls s →
        (placementFormat.start s.file).entries = s.entries ∧
        s.entries = calls.foldl (fun entries call => call.apply entries) (placementFormat.load file) ∧
        (∀ deviceId direction offset s', placementFormat.Step s (ScreenArrangement.set deviceId direction offset) s' →
          ∀ d, ScreenArrangement.get (placementFormat.start s'.file) d =
            if d = deviceId then some ⟨d, direction, offset.toInt⟩ else ScreenArrangement.get s d) ∧
        ∀ deviceId s', placementFormat.Step s (ScreenArrangement.forget deviceId) s' →
          ∀ d, ScreenArrangement.get (placementFormat.start s'.file) d =
            if d = deviceId then none else ScreenArrangement.get s d := by
  constructor
  · intro file calls s run
    exact ⟨run.agrees.1, run.agrees.2, Discovery.KnownPeers.ofStore_runs run⟩
  · intro file calls s run
    exact ⟨run.agrees.1, run.agrees.2, fun _ _ _ _ step => ScreenArrangement.get_set run step,
      fun _ _ step => ScreenArrangement.get_forget run step⟩

end NoCapKVM.Topology
