import NoCapKVM.Discovery.TcpClient
import NoCapKVM.Discovery.TcpServer
import NoCapKVM.Thread.Safety

/-! What a connection thread shares with the UI thread, its clock and its peer. -/
namespace NoCapKVM.Discovery

open Thread

/-- `incoming` is what the peer of the current connection sends in the clear.
`kickedAtAccept` records the kicked devices of when that connection was
accepted. -/
structure World where
  clock : Time
  running : Bool
  knownPeers : KnownPeers
  status : ConnectionInfo
  decision : PairingDecision
  disconnectRequested : Bool
  heartbeatTimeout : Time
  kicked : UInt64 → Bool
  kickedAtAccept : UInt64 → Bool
  activeChannel : Bool
  pendingClipboard : Option ClipboardMessage
  incoming : List UInt8

/-- The fields of a freshly started connection object, and what its
peer will send. -/
def World.fresh (knownPeers : KnownPeers) (incoming : List UInt8) : World where
  clock := 0
  running := true
  knownPeers := knownPeers
  status := {}
  decision := .pending
  disconnectRequested := false
  heartbeatTimeout := seconds 10
  kicked := fun _ => false
  kickedAtAccept := fun _ => false
  activeChannel := false
  pendingClipboard := none
  incoming := incoming

/-- The calls that other threads make. -/
inductive Action where
  | stop
  | approvePairing
  | rejectPairing
  | disconnectCurrent
  | setHeartbeatTimeout (timeout : Time)
  | takePendingClipboard
  | remember (deviceId : UInt64) (pubkey : Key32 UInt8)
  | forget (deviceId : UInt64)

namespace World

def act : Action → World → World
  | .stop, s => { s with running := false }
  | .approvePairing, s => { s with decision := .approved }
  | .rejectPairing, s => { s with decision := .rejected }
  | .disconnectCurrent, s => { s with disconnectRequested := true }
  | .setHeartbeatTimeout timeout, s => { s with heartbeatTimeout := timeout }
  | .takePendingClipboard, s => { s with pendingClipboard := none }
  | .remember deviceId pubkey, s => { s with knownPeers := s.knownPeers.remember deviceId pubkey }
  | .forget deviceId, s => { s with knownPeers := s.knownPeers.forget deviceId }

/-- What an operation may be answered. A read takes the next bytes of the
peer, or fails after some of them. What the system or the sealed part of the
connection decides is open. -/
def exec : (o : Op) → World → Ans o → World → Prop
  | .loadRunning, s, r, s' => r = s.running ∧ s' = s
  | .now, s, r, s' => s.clock ≤ r ∧ s' = { s with clock := r }
  | .sleepFor duration, s, _, s' => ∃ t, s.clock + duration ≤ t ∧ s' = { s with clock := t }
  | .accept, s, r, s' =>
      (r = none ∧ s' = s) ∨
        ∃ ip stream, r = some ip ∧ s' = { s with incoming := stream, kickedAtAccept := s.kicked }
  | .recvAll _ _ _, s, r, s' =>
      (∃ data rest, r = some data ∧ s.incoming = data.val ++ rest ∧ s' = { s with incoming := rest }) ∨
        (r = none ∧ ∃ lost rest, s.incoming = lost ++ rest ∧ s' = { s with incoming := rest })
  | .getPubkey deviceId, s, r, s' => r = s.knownPeers.getPubkey deviceId ∧ s' = s
  | .remember deviceId pubkey, s, _, s' =>
      s' = { s with knownPeers := s.knownPeers.remember deviceId pubkey }
  | .assignStatus info, s, _, s' => s' = { s with status := info }
  | .updateStatus u, s, _, s' => s' = { s with status := u.apply s.status }
  | .storeDecision d, s, _, s' => s' = { s with decision := d }
  | .loadDecision, s, r, s' => r = s.decision ∧ s' = s
  | .kickedCount deviceId, s, r, s' => r = s.kicked deviceId ∧ s' = s
  | .kickedInsert deviceId, s, _, s' =>
      s' = { s with kicked := fun d => d = deviceId || s.kicked d }
  | .kickedErase deviceId, s, _, s' =>
      s' = { s with kicked := fun d => d ≠ deviceId && s.kicked d }
  | .setActiveChannel active, s, _, s' => s' = { s with activeChannel := active }
  | .storeDisconnect requested, s, _, s' => s' = { s with disconnectRequested := requested }
  | .loadDisconnect, s, r, s' => r = s.disconnectRequested ∧ s' = s
  | .loadHeartbeatTimeout, s, r, s' => r = s.heartbeatTimeout ∧ s' = s
  | .setPendingClipboard message, s, _, s' => s' = { s with pendingClipboard := some message }
  | _, s, _, s' => s' = s

/-- The members that an operation writes, whatever it is answered. -/
def writes : Op → World → World
  | .remember deviceId pubkey, s => { s with knownPeers := s.knownPeers.remember deviceId pubkey }
  | .assignStatus info, s => { s with status := info }
  | .updateStatus u, s => { s with status := u.apply s.status }
  | .storeDecision d, s => { s with decision := d }
  | .kickedInsert deviceId, s => { s with kicked := fun d => d = deviceId || s.kicked d }
  | .kickedErase deviceId, s => { s with kicked := fun d => d ≠ deviceId && s.kicked d }
  | .setActiveChannel active, s => { s with activeChannel := active }
  | .storeDisconnect requested, s => { s with disconnectRequested := requested }
  | .setPendingClipboard message, s => { s with pendingClipboard := some message }
  | _, s => s

/-- All else that an operation changes is the clock, what is left to read, and
with `accept` the kicked devices of that moment. -/
theorem exec_writes {o : Op} {s s' : World} {r : Ans o} (h : exec o s r s') :
    ∃ clock incoming kickedAtAccept, (o ≠ .accept → kickedAtAccept = s.kickedAtAccept) ∧
      s' = { writes o s with clock := clock, incoming := incoming, kickedAtAccept := kickedAtAccept } := by
  cases o with
  | accept => rcases h with ⟨-, rfl⟩ | ⟨_, _, -, rfl⟩ <;> exact ⟨_, _, _, fun hOther => absurd rfl hOther, rfl⟩
  | recvAll => rcases h with ⟨_, _, -, -, rfl⟩ | ⟨-, _, _, -, rfl⟩ <;> exact ⟨_, _, _, fun _ => rfl, rfl⟩
  | sleepFor => obtain ⟨_, -, rfl⟩ := h; exact ⟨_, _, _, fun _ => rfl, rfl⟩
  | now => obtain ⟨-, rfl⟩ := h; exact ⟨_, _, _, fun _ => rfl, rfl⟩
  | loadRunning => obtain ⟨-, rfl⟩ := h; exact ⟨_, _, _, fun _ => rfl, rfl⟩
  | getPubkey => obtain ⟨-, rfl⟩ := h; exact ⟨_, _, _, fun _ => rfl, rfl⟩
  | loadDecision => obtain ⟨-, rfl⟩ := h; exact ⟨_, _, _, fun _ => rfl, rfl⟩
  | kickedCount => obtain ⟨-, rfl⟩ := h; exact ⟨_, _, _, fun _ => rfl, rfl⟩
  | loadDisconnect => obtain ⟨-, rfl⟩ := h; exact ⟨_, _, _, fun _ => rfl, rfl⟩
  | loadHeartbeatTimeout => obtain ⟨-, rfl⟩ := h; exact ⟨_, _, _, fun _ => rfl, rfl⟩
  | _ => obtain rfl := h; exact ⟨_, _, _, fun _ => rfl, rfl⟩

/-- Only `remember` changes the trust store. -/
theorem exec_knownPeers {o : Op} {s s' : World} {r : Ans o} (h : exec o s r s')
    (hOther : ∀ deviceId pubkey, o ≠ .remember deviceId pubkey) : s'.knownPeers = s.knownPeers := by
  obtain ⟨_, _, _, -, rfl⟩ := exec_writes h
  cases o with
  | remember deviceId pubkey => exact absurd rfl (hOther deviceId pubkey)
  | _ => rfl

end World

/-- A connection thread among threads that make the allowed calls,
at any time. -/
def connSystem (allowed : Action → Prop) : System Op Ans Action World where
  exec := World.exec
  env a s s' := allowed a ∧ s' = s.act a

abbrev ConnLabel := Label Op Ans Action

end NoCapKVM.Discovery
