import NoCapKVM.Discovery.ConnectionInfo
import NoCapKVM.Discovery.HexKeys
import NoCapKVM.Files.LineStore

/-! The file of `known_peers.cpp`: one trusted key a line. -/
namespace NoCapKVM.Discovery

open Text Files

/-- `out << std::hex << device_id << " " << to_hex(pubkey) << "\n"` -/
def writePeer (out : OStream) (peer : UInt64 × Key32 UInt8) : OStream :=
  (((out.hex.uint64 peer.1).put [' ']).put (toHex peer.2)).put ['\n']

/-- `iss >> std::hex >> device_id >> pub_hex` -/
def peerFields (line : List Char) : Option (UInt64 × List Char) :=
  let (deviceId, iss) := IStream.hexUInt64 ⟨line, false⟩
  let (pubHex, _) := iss.word
  match deviceId, pubHex with
  | some deviceId, some pubHex => some (deviceId, pubHex)
  | _, _ => none

def readPeer (line : List Char) : Option (UInt64 × Key32 UInt8) :=
  match peerFields line with
  | some (deviceId, pubHex) => (fromHex pubHex).map (deviceId, ·)
  | none => none

def peerLine (peer : UInt64 × Key32 UInt8) : List Char :=
  Nat.toDigits 16 peer.1.toNat ++ ' ' :: toHex peer.2

theorem newline_notMem_peerLine (peer : UInt64 × Key32 UInt8) : '\n' ∉ peerLine peer := by
  intro h
  rcases List.mem_append.mp h with hId | hRest
  · exact absurd (isHexDigit_toDigits _ hId) (by decide)
  · rcases List.mem_cons.mp hRest with hSpace | hKey
    · cases hSpace
    · exact absurd (isHexDigit_toHex _ hKey) (by decide)

theorem readPeer_peerLine (peer : UInt64 × Key32 UInt8) : readPeer (peerLine peer) = some peer := by
  obtain ⟨deviceId, pubkey⟩ := peer
  have hId : IStream.hexUInt64 ⟨peerLine (deviceId, pubkey), false⟩ = (some deviceId, ⟨' ' :: toHex pubkey, false⟩) :=
    @IStream.hexUInt64_before [] _ deviceId (by simp) (by simp [isSpace])
  have hNe : toHex pubkey ≠ [] := List.ne_nil_of_length_pos (by rw [length_toHex]; decide)
  have hChars : ∀ c ∈ toHex pubkey, !isSpace c := fun c hc => by
    simp [isSpace_of_isHexDigit (isHexDigit_toHex c hc)]
  have hWord : IStream.word ⟨' ' :: toHex pubkey, false⟩ = (some (toHex pubkey), ⟨[], false⟩) := by
    have hRead := @IStream.word_before [' '] [] (toHex pubkey) (by simp [isSpace]) hChars hNe (by simp)
    rwa [List.append_nil] at hRead
  simp only [readPeer, peerFields, hId, hWord, fromHex_toHex, Option.map_some]

def peerFormat : LineFormat UInt64 (Key32 UInt8) where
  write := writePeer
  read := readPeer
  line := peerLine
  text_write out peer := by simp [writePeer, peerLine, OStream.uint64, OStream.put, OStream.hex]
  newline_notMem := newline_notMem_peerLine
  read_line := readPeer_peerLine

namespace KnownPeers

/-- The trust store with its file. -/
def ofStore (s : Store UInt64 (Key32 UInt8)) : KnownPeers := ⟨s.entries, peerFormat.load s.file⟩

/-- The calls of the trust store: `remember` puts an entry,
`forget` erases one. -/
def afterCall (s : KnownPeers) : Call UInt64 (Key32 UInt8) → KnownPeers
  | .put deviceId pubkey => s.remember deviceId pubkey
  | .erase deviceId => s.forget deviceId
  | .restart => ⟨s.saved, s.saved⟩

variable {s s' : Store UInt64 (Key32 UInt8)} {call : Call UInt64 (Key32 UInt8)}

/-- A store on a file does what the store of the connections does, whatever
order it writes in. -/
theorem ofStore_step (step : peerFormat.Step s call s') : ofStore s' = (ofStore s).afterCall call := by
  cases step with
  | @put deviceId pubkey order hOrder =>
    have hEntries : Function.update s.entries deviceId (some pubkey) =
        fun d => if d = deviceId then some pubkey else s.entries d :=
      funext fun d => Function.update_apply ..
    simp only [ofStore, peerFormat.load_save hOrder, afterCall, remember, save, hEntries]
  | @erase deviceId order hOrder =>
    have hEntries : Function.update s.entries deviceId none =
        fun d => if d = deviceId then none else s.entries d :=
      funext fun d => Function.update_apply ..
    simp only [ofStore, peerFormat.load_save hOrder, afterCall, forget, save, hEntries]
  | restart => rfl

theorem ofStore_runs {file : List Char} {calls : List (Call UInt64 (Key32 UInt8))} (run : peerFormat.Runs file calls s) :
    ofStore s = calls.foldl afterCall (ofStore (peerFormat.start file)) := by
  induction run with
  | start => rfl
  | step prior last ih => rw [ofStore_step last, ih, List.foldl_concat]

end KnownPeers
end NoCapKVM.Discovery
