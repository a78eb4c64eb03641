import NoCapKVM.Discovery.AttemptPhases

/-! The monitor list on the wire: what the decoder reads and accepts, and what becomes of a
message that it rejects. -/
namespace NoCapKVM.Discovery

open Codec Memory Thread

def kFixedRecordLen : Nat := 4 * 4 + 1 + 1

/-- The fields of a record in front of its name, and the length
of the name. -/
def loadRecord (data : List UInt8) (offset : Nat) : Option (MonitorInfo × UInt8) := do
  let x ← loadBe32 data offset
  let y ← loadBe32 data (offset + 4)
  let width ← loadBe32 data (offset + 8)
  let height ← loadBe32 data (offset + 12)
  let primary ← load data (offset + 16)
  let nameLen ← load data (offset + 17)
  return ({ x := x.toInt32, y := y.toInt32, width := width.toInt32, height := height.toInt32,
            primary := primary != 0 }, nameLen)

/-- The rounds of the loop. A read outside of the buffer has no result, a
message that is rejected has the result `none`. -/
def loadMonitors (data : List UInt8) : Nat → Nat → Option (Option (List MonitorInfo))
  | 0, _ => some (some [])
  | count + 1, offset =>
      if data.length < offset + kFixedRecordLen then some none
      else do
        let (m, nameLen) ← loadRecord data offset
        let offset := offset + kFixedRecordLen
        if data.length < offset + nameLen.toNat then some none
        else
          let name ← loads data offset nameLen.toNat
          let out ← loadMonitors data count (offset + nameLen.toNat)
          return out.map ({ m with name := name } :: ·)

/-- `decode_monitor_list` on `data` and its length. -/
def loadMonitorList (data : List UInt8) : Option (Option (List MonitorInfo)) :=
  if data.length < 1 then some none
  else do
    let count ← load data 0
    loadMonitors data count.toNat 1

/-- Too few bytes for a record are refused. -/
theorem decodeMonitor_short {xs : List UInt8} (h : xs.length < kFixedRecordLen) : decodeMonitor xs = none := by
  unfold decodeMonitor
  split
  · simp only [List.length_cons, kFixedRecordLen] at h
    omega
  · rfl

/-- Where the fixed part of a record fits, it is read, and the name is what is
left to decode. -/
theorem loadRecord_decodeMonitor {data : List UInt8} {offset : Nat} (h : offset + kFixedRecordLen ≤ data.length) :
    ∃ m nameLen, loadRecord data offset = some (m, nameLen) ∧
      decodeMonitor (data.drop offset) =
        if (data.drop (offset + kFixedRecordLen)).length < nameLen.toNat then none
        else some ({ m with name := (data.drop (offset + kFixedRecordLen)).take nameLen.toNat },
          (data.drop (offset + kFixedRecordLen)).drop nameLen.toNat) := by
  have hLength : 18 ≤ (data.drop offset).length := by
    rw [List.length_drop]
    change offset + 18 ≤ data.length at h
    omega
  obtain ⟨x₀, x₁, x₂, x₃, y₀, y₁, y₂, y₃, w₀, w₁, w₂, w₃, h₀, h₁, h₂, h₃, p, n, rest, hCons⟩ := first_eighteen hLength
  have hFrom : ∀ k, data.drop (offset + k) = (data.drop offset).drop k := fun k => List.drop_drop.symm
  rw [hCons] at hFrom
  have hLoad : ∀ k, load data (offset + k) = (data.drop offset)[k]? := fun k => List.getElem?_drop.symm
  rw [hCons] at hLoad
  refine ⟨{ x := (readBe32 x₀ x₁ x₂ x₃).toInt32, y := (readBe32 y₀ y₁ y₂ y₃).toInt32,
            width := (readBe32 w₀ w₁ w₂ w₃).toInt32, height := (readBe32 h₀ h₁ h₂ h₃).toInt32,
            primary := p != 0 }, n, ?_, ?_⟩
  · rw [loadRecord, loadBe32_drop hCons, loadBe32_drop (hFrom 4), loadBe32_drop (hFrom 8), loadBe32_drop (hFrom 12),
      hLoad 16, hLoad 17]
    rfl
  · rw [hFrom kFixedRecordLen, hCons]
    rfl

/-- The decoder on the buffer reads only inside it, and is the decoder
on the list. -/
theorem loadMonitors_eq {data : List UInt8} {count offset : Nat} (h : offset ≤ data.length) :
    loadMonitors data count offset = some (decodeMonitors count (data.drop offset)) := by
  induction count generalizing offset with
  | zero => rfl
  | succ count ih =>
      unfold loadMonitors decodeMonitors
      by_cases hShort : data.length < offset + kFixedRecordLen
      · have hDrop : (data.drop offset).length < kFixedRecordLen := by
          rw [List.length_drop]
          omega
        rw [if_pos hShort, decodeMonitor_short hDrop]
        rfl
      · obtain ⟨m, nameLen, hLoad, hDecode⟩ := loadRecord_decodeMonitor (Nat.le_of_not_lt hShort)
        rw [if_neg hShort, hLoad, hDecode, List.length_drop, Option.bind_eq_bind, Option.bind_some]
        by_cases hName : data.length < offset + kFixedRecordLen + nameLen.toNat
        · dsimp only
          rw [if_pos hName, if_pos (by omega)]
          rfl
        · have hInside := Nat.le_of_not_lt hName
          dsimp only
          rw [if_neg hName, if_neg (by omega), loads_inside hInside, ih hInside]
          simp only [Option.bind_eq_bind, Option.bind_some, List.drop_drop]
          cases decodeMonitors count (data.drop (offset + kFixedRecordLen + nameLen.toNat)) <;> rfl

/-- The decoder of the source, which checks each access, never reads
out of bounds. -/
theorem loadMonitorList_eq (data : List UInt8) : loadMonitorList data = some (decodeMonitorList data) := by
  cases data with
  | nil => rfl
  | cons count rest => exact loadMonitors_eq (Nat.le_add_left 1 rest.length)

/-- A record is read back, with its name cut to what the format
has room for. -/
theorem decodeMonitor_encodeMonitor (m : MonitorInfo) (rest : List UInt8) :
    decodeMonitor (encodeMonitor m ++ rest) = some ({ m with name := m.name.take kMaxNameLen }, rest) := by
  have hCap : (min m.name.length kMaxNameLen).toUInt8.toNat = min m.name.length kMaxNameLen :=
    toNat_toUInt8_min (by decide)
  have hTake : (m.name.take kMaxNameLen).length = min m.name.length kMaxNameLen := by
    rw [List.length_take, Nat.min_comm]
  simp only [encodeMonitor, be32, List.cons_append, List.nil_append, decodeMonitor, readBe32_be32, hCap,
    Int32.toInt32_toUInt32]
  rw [if_neg (by simp only [List.length_append, hTake]; omega), ← hTake, List.take_left, List.drop_left]
  cases m with
  | mk x y width height primary name => cases primary <;> rfl

/-- So are as many records as are asked for. -/
theorem decodeMonitors_flatMap (monitors : List MonitorInfo) (rest : List UInt8) :
    decodeMonitors monitors.length (monitors.flatMap encodeMonitor ++ rest) =
      some (monitors.map fun m => { m with name := m.name.take kMaxNameLen }) := by
  induction monitors with
  | nil => rfl
  | cons m monitors ih =>
      rw [List.flatMap_cons, List.append_assoc, List.length_cons, decodeMonitors, decodeMonitor_encodeMonitor]
      simp only [Option.bind_eq_bind, Option.bind_some, ih]
      rfl

/-- So a list is read back, cut to what the format has room for. -/
theorem decodeMonitorList_encodeMonitorList (monitors : List MonitorInfo) (rest : List UInt8) :
    decodeMonitorList (encodeMonitorList monitors ++ rest) =
      some ((monitors.take kMaxMonitors).map fun m => { m with name := m.name.take kMaxNameLen }) := by
  have hCount : (min monitors.length kMaxMonitors).toUInt8.toNat = (monitors.take kMaxMonitors).length := by
    rw [toNat_toUInt8_min (by decide), List.length_take, Nat.min_comm]
  rw [encodeMonitorList, List.cons_append, decodeMonitorList, hCount]
  exact decodeMonitors_flatMap _ rest

/-- How many bytes the records of a list take. -/
def recordBytes (monitors : List MonitorInfo) : Nat :=
  (monitors.map fun m => kFixedRecordLen + m.name.length).sum

/-- A record that is decoded has taken its own bytes, and more bytes
behind it stay. -/
theorem decodeMonitor_append {data rest : List UInt8} {m : MonitorInfo} (more : List UInt8)
    (h : decodeMonitor data = some (m, rest)) :
    decodeMonitor (data ++ more) = some (m, rest ++ more) ∧
      data.length = kFixedRecordLen + m.name.length + rest.length := by
  unfold decodeMonitor at h
  split at h
  · rename_i primary nameLen tail
    split at h
    · cases h
    · rename_i hName
      cases h
      have hInside : nameLen.toNat ≤ tail.length := Nat.le_of_not_lt hName
      constructor
      · simp only [List.cons_append, decodeMonitor]
        rw [if_neg (by simp only [List.length_append]; omega), List.take_append_of_le_length hInside,
          List.drop_append_of_le_length hInside]
      · simp only [List.length_cons, List.length_take, List.length_drop, kFixedRecordLen]
        omega
  · cases h

/-- More bytes behind the records change nothing, and the records take no more
than there are. -/
theorem decodeMonitors_append {count : Nat} {data : List UInt8} {monitors : List MonitorInfo} (more : List UInt8)
    (h : decodeMonitors count data = some monitors) :
    decodeMonitors count (data ++ more) = some monitors ∧ recordBytes monitors ≤ data.length := by
  induction count generalizing data monitors with
  | zero =>
      cases h
      exact ⟨rfl, Nat.zero_le _⟩
  | succ count ih =>
      simp only [decodeMonitors, Option.bind_eq_bind, Option.bind_eq_some_iff] at h
      obtain ⟨⟨m, rest⟩, hFirst, ms, hRest, hList⟩ := h
      cases hList
      obtain ⟨hMore, hLength⟩ := decodeMonitor_append more hFirst
      obtain ⟨hTail, hBytes⟩ := ih hRest
      constructor
      · simp only [decodeMonitors, hMore, Option.bind_eq_bind, Option.bind_some, hTail]
        rfl
      · simp only [recordBytes, List.map_cons, List.sum_cons] at hBytes ⊢
        omega

/-- The bytes of a list are those of its records. -/
theorem length_flatMap_encodeMonitor (monitors : List MonitorInfo) :
    (monitors.flatMap encodeMonitor).length =
      recordBytes (monitors.map fun m => { m with name := m.name.take kMaxNameLen }) := by
  induction monitors with
  | nil => rfl
  | cons m monitors ih =>
      have hRecord : (encodeMonitor m).length = kFixedRecordLen + (m.name.take kMaxNameLen).length := by
        simp only [encodeMonitor, List.length_append, be32_length, List.length_cons, List.length_nil, kFixedRecordLen]
      simp only [List.flatMap_cons, List.length_append, hRecord, ih, recordBytes, List.map_cons, List.sum_cons]

/-- A prefix that were accepted would give the whole list, and so have
all its bytes. -/
theorem decodeMonitorList_prefix {monitors : List MonitorInfo} {data : List UInt8}
    (hPrefix : data <+: encodeMonitorList monitors) (hStrict : data ≠ encodeMonitorList monitors) :
    decodeMonitorList data = none := by
  obtain ⟨more, hWhole⟩ := hPrefix
  cases data with
  | nil => rfl
  | cons count rest =>
      by_contra hAccepted
      obtain ⟨ms, hDecode⟩ := Option.ne_none_iff_exists'.mp hAccepted
      obtain ⟨hMore, hBytes⟩ := decodeMonitors_append more hDecode
      have hRound := decodeMonitorList_encodeMonitorList monitors []
      rw [List.append_nil, ← hWhole, List.cons_append, decodeMonitorList, hMore, Option.some.injEq] at hRound
      have hLength := congrArg List.length hWhole
      simp only [encodeMonitorList, List.cons_append, List.length_cons, List.length_append,
        length_flatMap_encodeMonitor, ← hRound] at hLength
      have hNone : more = [] := List.length_eq_zero_iff.mp (by omega)
      rw [hNone, List.append_nil] at hWhole
      exact hStrict hWhole

variable {allowed : Action → Prop} {link : Link} {payload : List UInt8}

/-- A list that is refused leaves everything as it was. -/
theorem dispatch_rejected (h : decodeMonitorList payload = none) :
    TcpServer.dispatch link kMsgMonitorList payload = .ret link := by
  simp only [TcpServer.dispatch, if_true, h]
  rfl

/-- Other threads leave the status alone. -/
theorem ret_status {α : Type} {a : α} {past : List ConnLabel} {s s' : World} {p : ConnProg α}
    (run : Run (connSystem allowed) (.ret a) s past p s') : p = .ret a ∧ s'.status = s.status := by
  induction run with
  | start => exact ⟨rfl, rfl⟩
  | step prior last ih =>
      obtain ⟨rfl, hStatus⟩ := ih
      cases last with
      | env h =>
          obtain ⟨-, rfl⟩ := h
          exact ⟨rfl, (act_status _ _).trans hStatus⟩

/-- Whatever follows it, an encoded list comes back with its caps, and no
strict prefix of it is accepted. The decoder never reads outside of its
message, and a message that it rejects leaves the stored list as it was,
whatever other threads call meanwhile. -/
theorem monitor_list_codec :
    (∀ monitors rest, loadMonitorList (encodeMonitorList monitors ++ rest) =
      some (some ((monitors.take kMaxMonitors).map fun m => { m with name := m.name.take kMaxNameLen }))) ∧
    (∀ monitors data, data <+: encodeMonitorList monitors → data ≠ encodeMonitorList monitors →
      loadMonitorList data = some none) ∧
    (∀ data, loadMonitorList data = some (decodeMonitorList data)) ∧
    ∀ link payload, loadMonitorList payload = some none →
      ∀ (s : World) past p s', Run (connSystem fun _ => True) (TcpServer.dispatch link kMsgMonitorList payload) s past p s' →
        s'.status.peerMonitors = s.status.peerMonitors := by
  refine ⟨?_, ?_, loadMonitorList_eq, ?_⟩
  · intro monitors rest
    rw [loadMonitorList_eq, decodeMonitorList_encodeMonitorList]
  · intro monitors data hPrefix hStrict
    rw [loadMonitorList_eq, decodeMonitorList_prefix hPrefix hStrict]
  · intro link payload hRejected s past p s' run
    rw [loadMonitorList_eq, Option.some.injEq] at hRejected
    rw [dispatch_rejected hRejected] at run
    rw [(ret_status run).2]

end NoCapKVM.Discovery
