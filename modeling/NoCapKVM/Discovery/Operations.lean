import NoCapKVM.Discovery.ConnectionInfo
import NoCapKVM.Discovery.NoiseIk
import NoCapKVM.Input.Protocol

/-! The operations that the connection threads perform on what they share with
others: sockets, clocks, the trust store, the status, and the flags set by the
UI thread. -/
namespace NoCapKVM.Discovery

open Thread

/-- Nanoseconds of the steady clock, and durations. -/
abbrev Time := Nat

def milliseconds (n : Nat) : Time := n * 1000000

def seconds (n : Nat) : Time := n * 1000000000

inductive PairingDecision where
  | pending
  | approved
  | rejected
  deriving DecidableEq

inductive RecvResult where
  | timeout
  | closed
  | error
  | ok (msgType : UInt8) (payload : List UInt8)
  deriving DecidableEq

/-- What a handshake transfer is for. The program does not look at it. -/
inductive Phase where
  | deviceId
  | pairingFlag
  | rawPubkey
  | decision
  | ikMsg1
  | ikMsg2
  deriving DecidableEq

/-- Remarks about the progress of a thread, without effect: the key that a
side trusts when its Noise IK run starts, and the key that it has verified. -/
inductive Remark where
  | ikStarts (trusted : Key32 UInt8)
  | ikSucceeded (peerStatic : Key32 UInt8)

inductive Op where
  | loadRunning
  | now
  | sleepFor (duration : Time)
  | createTcpSocket
  | connect (ip : String) (port : UInt16) (timeout : Time)
  | waitReadable (timeout : Time)
  | accept
  | closeSocket
  | sendAll (phase : Phase) (data : List UInt8)
  | recvAll (phase : Phase) (len : Nat) (deadline : Time)
  | generateKeypair
  | remark (r : Remark)
  | getPubkey (deviceId : UInt64)
  | remember (deviceId : UInt64) (pubkey : Key32 UInt8)
  | assignStatus (info : ConnectionInfo)
  | updateStatus (u : StatusUpdate)
  | storeDecision (d : PairingDecision)
  | loadDecision
  | kickedCount (deviceId : UInt64)
  | kickedInsert (deviceId : UInt64)
  | kickedErase (deviceId : UInt64)
  | openChannel (keys : TransportKeys UInt8)
  | setActiveChannel (active : Bool)
  | channelSend (msgType : UInt8) (payload : List UInt8)
  | channelReceive (deadline : Time)
  | storeDisconnect (requested : Bool)
  | loadDisconnect
  | loadHeartbeatTimeout
  | getLocalMonitors
  | setPendingClipboard (message : ClipboardMessage)
  | inject (call : Input.Injection)

/-- A transfer that fails is answered `false` or `none`, and so
is `accept`. -/
@[reducible] def Ans : Op → Type
  | .loadRunning => Bool
  | .now => Time
  | .createTcpSocket => Bool
  | .connect .. => Bool
  | .waitReadable _ => Bool
  | .accept => Option String
  | .sendAll .. => Bool
  | .recvAll _ len _ => Option (Bytes UInt8 len)
  | .generateKeypair => Keypair UInt8
  | .getPubkey _ => Option (Key32 UInt8)
  | .loadDecision => PairingDecision
  | .kickedCount _ => Bool
  | .channelSend .. => Bool
  | .channelReceive _ => RecvResult
  | .loadDisconnect => Bool
  | .loadHeartbeatTimeout => Time
  | .getLocalMonitors => List MonitorInfo
  | _ => Unit

abbrev ConnProg := Prog Op Ans

abbrev perform (o : Op) : ConnProg (Ans o) := Prog.perform o

def kHandshakeTimeout : Time := seconds 3
def kHeartbeatInterval : Time := milliseconds 1000
def kPingProbeTimeout : Time := milliseconds 5000
def kPairingApprovalTimeout : Time := seconds 120

def kPairingApproved : UInt8 := 0x01
def kPairingRejected : UInt8 := 0x00

/-- `send_all(...) && recv_all(...)` -/
def exchange (phase : Phase) (data : List UInt8) (len : Nat) (deadline : Time) :
    ConnProg (Option (Bytes UInt8 len)) := do
  if ← perform (.sendAll phase data) then perform (.recvAll phase len deadline)
  else return none

/-- The operations of a Noise IK side that sends in phase `out` and receives
in phase `inp`. -/
def ikOp (out inp : Phase) (deadline : Time) : (o : IkOp UInt8) → ConnProg (IkAns o)
  | .generateKeypair => perform .generateKeypair
  | .sendAll data => perform (.sendAll out data)
  | .recvAll len => perform (.recvAll inp len deadline)

/-- "%02x" -/
def hexByte (b : UInt8) : List Char :=
  [Nat.digitChar (b.toNat / 16), Nat.digitChar (b.toNat % 16)]

/-- The first three bytes of the hash of both keys, the initiator's first. -/
def computeFingerprint (na : Sodium UInt8) (initiatorPubkey responderPubkey : Key32 UInt8) : String :=
  let digest := na.sha256 (initiatorPubkey.val ++ responderPubkey.val)
  String.ofList ((digest.val.take 3).flatMap hexByte)

/-- The variables of a message loop that both sides have. -/
structure Link where
  lastHeard : Time
  lastHeartbeatSent : Time
  lastPingSent : Time
  nextPingSeq : UInt32 := 0
  pingInFlightSeq : Option UInt32 := none
  pingSentAt : Time := 0

def answerPing (payload : List UInt8) : ConnProg Unit := do
  let some seq := decodePingSeq payload | return
  let _ ← perform (.channelSend kMsgPong (encodePingSeq seq))

def receivePong (link : Link) (payload : List UInt8) : ConnProg Link := do
  let some seq := decodePingSeq payload | return link
  if link.pingInFlightSeq = some seq then
    let now ← perform .now
    perform (.updateStatus (.lastRttMs ((now - link.pingSentAt) / milliseconds 1 : Nat)))
    return { link with pingInFlightSeq := none }
  else return link

def receiveClipboard (msgType : UInt8) (payload : List UInt8) : ConnProg Unit :=
  perform (.setPendingClipboard
    { type := if msgType = kMsgClipboardText then .text else .jpeg, data := payload })

def sendHeartbeat (link : Link) (now : Time) : ConnProg Link := do
  if now - link.lastHeartbeatSent ≥ kHeartbeatInterval then
    let _ ← perform (.channelSend kMsgHeartbeat [])
    return { link with lastHeartbeatSent := now }
  else return link

/-- A probe that nothing has answered in too long is given up. -/
def abandonProbe (link : Link) (now : Time) : Link :=
  if link.pingInFlightSeq.isSome && now - link.pingSentAt ≥ kPingProbeTimeout then
    { link with pingInFlightSeq := none }
  else link

def sendProbe (link : Link) (now : Time) : ConnProg Link := do
  if link.pingInFlightSeq.isNone && now - link.lastPingSent ≥ kHeartbeatInterval then
    let _ ← perform (.channelSend kMsgPing (encodePingSeq link.nextPingSeq))
    return { link with pingInFlightSeq := some link.nextPingSeq, pingSentAt := now,
                       nextPingSeq := link.nextPingSeq + 1, lastPingSent := now }
  else return link

/-- The heartbeat and the RTT probe of one round. -/
def keepAlive (link : Link) (now : Time) : ConnProg Link := do
  let link ← sendHeartbeat link now
  sendProbe (abandonProbe link now) now

/-- The operations of a Noise IK run. -/
def IsTransfer : Op → Prop
  | .sendAll .. | .recvAll .. | .generateKeypair => True
  | _ => False

theorem ikOp_uses {out inp : Phase} {deadline : Time} (o : IkOp UInt8) : (ikOp out inp deadline o).Uses IsTransfer := by
  cases o <;> exact ⟨trivial, fun _ => trivial⟩

theorem interp_ikOp_uses {α : Type} (p : IkProg UInt8 α) (out inp : Phase) (deadline : Time) :
    (p.interp (ikOp out inp deadline)).Uses IsTransfer :=
  Prog.Uses.interp ikOp_uses p

/-- The operations of a message loop. -/
def IsSessionOp : Op → Prop
  | .loadRunning | .now | .channelSend .. | .channelReceive _ | .loadDisconnect
  | .loadHeartbeatTimeout | .getLocalMonitors | .setPendingClipboard _ | .inject _ => True
  | .updateStatus (.state _) => False
  | .updateStatus _ => True
  | _ => False

/-- What a round of a message loop performs besides the receive
it waits in. -/
def IsAnswer : Op → Prop
  | .channelReceive _ => False
  | o => IsSessionOp o

theorem isSession_of_answer {o : Op} (h : IsAnswer o) : IsSessionOp o := by
  cases o with
  | channelReceive deadline => exact trivial
  | _ => exact h

section Uses

variable {P : Op → Prop}

theorem exchange_uses {phase : Phase} {data : List UInt8} {len : Nat} {deadline : Time} (hSend : P (.sendAll phase data))
    (hRecv : P (.recvAll phase len deadline)) : (exchange phase data len deadline).Uses P := by
  refine ⟨hSend, fun sent => ?_⟩
  cases sent <;> simp [hRecv]

variable (hSend : ∀ msgType payload, P (.channelSend msgType payload))

include hSend

theorem answerPing_uses (payload : List UInt8) : (answerPing payload).Uses P := by
  unfold answerPing
  cases decodePingSeq payload <;> simp [hSend]

theorem keepAlive_uses (link : Link) (now : Time) : (keepAlive link now).Uses P := by
  refine Prog.Uses.bind ?_ fun link => ?_
  · unfold sendHeartbeat
    split <;> simp [hSend]
  · unfold sendProbe
    split <;> simp [hSend]

omit hSend

theorem receivePong_uses (hNow : P .now) (hRtt : ∀ ms, P (.updateStatus (.lastRttMs ms))) (link : Link)
    (payload : List UInt8) : (receivePong link payload).Uses P := by
  unfold receivePong
  cases decodePingSeq payload with
  | none => exact trivial
  | some seq =>
      by_cases hSeq : link.pingInFlightSeq = some seq
      · simp [hSeq, hNow, hRtt]
      · simp [hSeq]

end Uses

end NoCapKVM.Discovery
