import NoCapKVM.Discovery.Operations
import NoCapKVM.Thread.Safety

/-! `tcp_client.cpp`: the thread of the connecting side, the Slave. -/
namespace NoCapKVM.Discovery

open Thread

/-- What a `TcpClient` is constructed with. -/
structure TcpClient where
  ownDeviceId : UInt64
  ownStatic : Keypair UInt8
  peerIp : String
  peerPort : UInt16
  giveUpAfter : Time

/-- `retryFast` after a connection that was up, `retryBackoff` if none came
up, `giveUp` after an explicit rejection. -/
inductive AttemptOutcome where
  | retryFast
  | retryBackoff
  | giveUp
  deriving DecidableEq

namespace TcpClient

variable (na : Sodium UInt8) (c : TcpClient)

/-- An attempt that ends with its socket closed and its status `Failed`. -/
def abandon {α : Type} (outcome : AttemptOutcome) : ConnProg (Except AttemptOutcome α) := do
  perform .closeSocket
  perform (.updateStatus (.state .failed))
  return .error outcome

/-- The branch of `run_once` that pairs: raw public keys, fingerprint, and the
Master's decision. An approved key is stored. -/
def pair (peerDeviceId : UInt64) : ConnProg (Except AttemptOutcome (Key32 UInt8)) := do
  let deadline := (← perform .now) + kHandshakeTimeout
  let some peerRawPubkey ← exchange .rawPubkey c.ownStatic.publicKey.val 32 deadline
    | abandon .retryBackoff
  perform (.assignStatus { state := .pairing, peerDeviceId := peerDeviceId, peerIp := c.peerIp,
                           pairingFingerprint :=
                             computeFingerprint na c.ownStatic.publicKey peerRawPubkey })
  let deadline := (← perform .now) + kPairingApprovalTimeout
  let some decisionByte ← perform (.recvAll .decision 1 deadline) | abandon .retryBackoff
  if decisionByte.only ≠ kPairingApproved then abandon .giveUp
  else
    perform (.remember peerDeviceId peerRawPubkey)
    return .ok peerRawPubkey

def initiateIk (peerDeviceId : UInt64) (rs : Key32 UInt8) :
    ConnProg (Except AttemptOutcome (UInt64 × IkResult UInt8)) := do
  let deadline := (← perform .now) + kHandshakeTimeout
  perform (.remark (.ikStarts rs))
  match ← (runIkInitiator na c.ownStatic rs).interp (ikOp .ikMsg1 .ikMsg2 deadline) with
  | none => abandon .retryBackoff
  | some ik => return .ok (peerDeviceId, ik)

/-- `run_once` from the connected socket to the result of the handshake. -/
def handshake : ConnProg (Except AttemptOutcome (UInt64 × IkResult UInt8)) := do
  let deadline := (← perform .now) + kHandshakeTimeout
  let some peerBytes ← exchange .deviceId (encodeDeviceId c.ownDeviceId).val 8 deadline
    | abandon .retryBackoff
  let peerDeviceId := decodeDeviceId peerBytes
  let rs ← perform (.getPubkey peerDeviceId)
  let ownWantsPairing : UInt8 := if rs.isSome then 0 else 1
  let deadline := (← perform .now) + kHandshakeTimeout
  let some peerWantsPairing ← exchange .pairingFlag [ownWantsPairing] 1 deadline
    | abandon .retryBackoff
  match rs, peerWantsPairing.only != 0 with
  | some rs, false => initiateIk na c peerDeviceId rs
  | _, _ =>
      match ← pair na c peerDeviceId with
      | .error outcome => return .error outcome
      | .ok rs => initiateIk na c peerDeviceId rs

/-- What follows a pairing. -/
def initiateAfter (peerDeviceId : UInt64) :
    Except AttemptOutcome (Key32 UInt8) → ConnProg (Except AttemptOutcome (UInt64 × IkResult UInt8))
  | .error outcome => return .error outcome
  | .ok rs => initiateIk na c peerDeviceId rs

/-- The variables of the message loop. -/
structure Session where
  link : Link
  lastSentMonitors : List MonitorInfo
  lastMonitorCheck : Time

/-- One received message. -/
def dispatch (link : Link) (msgType : UInt8) (payload : List UInt8) : ConnProg Link := do
  if msgType = kMsgAudioPort then
    match decodeAudioPort payload with
    | some port => perform (.updateStatus (.peerAudioPort port))
    | none => pure ()
    return link
  else if msgType = kMsgAudioControl then
    match decodeAudioSettings payload with
    | some settings => perform (.updateStatus (.masterRequested settings))
    | none => pure ()
    return link
  else if msgType = kMsgGoAway then
    perform (.updateStatus .goAwayReceived)
    return link
  else if msgType = kMsgPing then
    answerPing payload
    return link
  else if msgType = kMsgPong then
    receivePong link payload
  else if msgType = kMsgClipboardText ∨ msgType = kMsgClipboardImage then
    receiveClipboard msgType payload
    return link
  else if msgType ≠ kMsgHeartbeat then
    match Input.dispatchInputMessage msgType payload with
    | some call => perform (.inject call)
    | none => pure ()
    return link
  else return link

/-- The periodic look at the local monitors. -/
def checkMonitors (x : Session) (now : Time) : ConnProg Session := do
  if now - x.lastMonitorCheck ≥ kHeartbeatInterval then
    let currentMonitors ← perform .getLocalMonitors
    if currentMonitors ≠ x.lastSentMonitors then
      let _ ← perform (.channelSend kMsgMonitorList (encodeMonitorList currentMonitors))
      return { x with lastSentMonitors := currentMonitors, lastMonitorCheck := now }
    else return { x with lastMonitorCheck := now }
  else return x

/-- One round of the message loop. -/
def sessionRound (x : Session) : ConnProg (Session ⊕ Unit) := do
  if !(← perform .loadRunning) then return .inr ()
  let start ← perform .now
  match ← perform (.channelReceive (start + milliseconds 200)) with
  | .closed => return .inr ()
  | .timeout => rest x.link
  | .error => rest { x.link with lastHeard := ← perform .now }
  | .ok msgType payload => rest (← dispatch { x.link with lastHeard := ← perform .now } msgType payload)
where
  /-- A round once its message is dealt with. -/
  rest (link : Link) : ConnProg (Session ⊕ Unit) := do
    let now ← perform .now
    if now - link.lastHeard ≥ c.giveUpAfter then return .inr ()
    let link ← keepAlive link now
    return .inl (← checkMonitors { x with link := link } now)

/-- `run_once` from `Connected` on. -/
def session (peerDeviceId : UInt64) (ik : IkResult UInt8) : ConnProg AttemptOutcome := do
  perform (.assignStatus { state := .connected, peerDeviceId := peerDeviceId, peerIp := c.peerIp,
                           audioKey := ik.keys.sendKey })
  perform (.openChannel ik.keys)
  perform (.setActiveChannel true)
  let monitors ← perform .getLocalMonitors
  let _ ← perform (.channelSend kMsgMonitorList (encodeMonitorList monitors))
  let lastHeard ← perform .now
  let lastHeartbeatSent ← perform .now
  let lastMonitorCheck ← perform .now
  let lastPingSent ← perform .now
  Prog.iterate
    { link := { lastHeard := lastHeard, lastHeartbeatSent := lastHeartbeatSent,
                lastPingSent := lastPingSent },
      lastSentMonitors := monitors, lastMonitorCheck := lastMonitorCheck } (sessionRound c)
  perform (.setActiveChannel false)
  perform .closeSocket
  perform (.updateStatus (.state .failed))
  return .retryFast

def runOnce : ConnProg AttemptOutcome := do
  perform (.assignStatus { state := .connecting, peerIp := c.peerIp })
  if !(← perform .createTcpSocket) then
    perform (.updateStatus (.state .failed))
    return .retryBackoff
  if !(← perform (.connect c.peerIp c.peerPort kHandshakeTimeout)) then
    perform .closeSocket
    perform (.updateStatus (.state .failed))
    return .retryBackoff
  match ← handshake na c with
  | .error outcome => return outcome
  | .ok (peerDeviceId, ik) => session c peerDeviceId ik

def kInitialBackoff : Time := milliseconds 1000
def kMaxBackoff : Time := milliseconds 10000
def kBackoffPollInterval : Time := milliseconds 200

/-- The wait between two attempts, in slices. -/
def backOff (giveUpDeadline backoff : Time) : ConnProg Unit :=
  Prog.iterate backoff fun remaining => do
    if remaining = 0 then return .inr ()
    if !(← perform .loadRunning) then return .inr ()
    let now ← perform .now
    if now ≥ giveUpDeadline then return .inr ()
    let untilDeadline := milliseconds ((giveUpDeadline - now) / milliseconds 1)
    let step := min remaining (min kBackoffPollInterval untilDeadline)
    perform (.sleepFor step)
    return .inl (remaining - step)

/-- The variables of `run`. -/
structure Retry where
  backoff : Time
  giveUpDeadline : Time

/-- The next attempt is due after `backoff`, unless the deadline
comes first. -/
def runRound (x : Retry) : ConnProg (Retry ⊕ Unit) := do
  if !(← perform .loadRunning) then return .inr ()
  let outcome ← runOnce na c
  if outcome = .giveUp then return .inr ()
  if !(← perform .loadRunning) then return .inr ()
  if outcome = .retryFast then
    let giveUpDeadline := (← perform .now) + c.giveUpAfter
    backOff giveUpDeadline kInitialBackoff
    if (← perform .now) ≥ giveUpDeadline then return .inr ()
    return .inl { backoff := kInitialBackoff, giveUpDeadline := giveUpDeadline }
  else
    if (← perform .now) ≥ x.giveUpDeadline then return .inr ()
    backOff x.giveUpDeadline x.backoff
    if (← perform .now) ≥ x.giveUpDeadline then return .inr ()
    return .inl { x with backoff := min (x.backoff * 2) kMaxBackoff }

def run : ConnProg Unit := do
  let giveUpDeadline := (← perform .now) + c.giveUpAfter
  Prog.iterate { backoff := kInitialBackoff, giveUpDeadline := giveUpDeadline } (runRound na c)

/-- After the pairing flags a client runs IK with the key it has stored, or
pairs first. -/
theorem branch_cases {P : ConnProg (Except AttemptOutcome (UInt64 × IkResult UInt8)) → Prop} (d : UInt64)
    (rs : Ans (.getPubkey d)) (wantsPairing : Bool) : P ((pair na c d).bind (initiateAfter na c d)) →
    (∀ k, rs = some k → wantsPairing = false → P (initiateIk na c d k)) →
    P (match rs, wantsPairing with
      | some rs, false => initiateIk na c d rs
      | _, _ => do
          match ← pair na c d with
          | .error outcome => return .error outcome
          | .ok rs => initiateIk na c d rs) := by
  intro hPair hStored
  cases rs with
  | none => exact hPair
  | some k =>
      cases wantsPairing with
      | true => exact hPair
      | false => exact hStored k rfl rfl

variable {na c} in
/-- A pairing, and the handshake with the key that it has given. -/
theorem pair_initiate_safe {Act S : Type} {sys : System Op Ans Act S} {ok : Op → Assertion Op Ans Act S} {d : UInt64}
    {R : Except AttemptOutcome (Key32 UInt8) → Assertion Op Ans Act S}
    {Q : Except AttemptOutcome (UInt64 × IkResult UInt8) → Assertion Op Ans Act S} {past : List (Label Op Ans Act)}
    {s : S} (hPair : Safe sys ok (pair na c d) R past s)
    (hError : ∀ outcome past s, R (.error outcome) past s → Safe sys ok (.ret (.error outcome)) Q past s)
    (hOk : ∀ rs past s, R (.ok rs) past s → Safe sys ok (initiateIk na c d rs) Q past s) :
    Safe sys ok ((pair na c d).bind (initiateAfter na c d)) Q past s := by
  refine Safe.bind (hPair.mono fun result past s h => ?_)
  cases result with
  | error outcome => exact hError outcome past s h
  | ok rs => exact hOk rs past s h

/-- What follows the handshake. -/
def sessionAfter : Except AttemptOutcome (UInt64 × IkResult UInt8) → ConnProg AttemptOutcome
  | .error outcome => return outcome
  | .ok (peerDeviceId, ik) => session c peerDeviceId ik

/-- Without a socket or a connection an attempt fails. With both it goes
through the handshake and the session. -/
theorem runOnce_cases {M : ConnProg AttemptOutcome → Prop} {C : Op → Prop}
    (hOp : ∀ o next, C o → (∀ r, M (next r)) → M (.op o next))
    (hStatus : C (.assignStatus { state := .connecting, peerIp := c.peerIp })) (hCreate : C .createTcpSocket)
    (hConnect : C (.connect c.peerIp c.peerPort kHandshakeTimeout))
    (hNoSocket : M (.op (.updateStatus (.state .failed)) fun _ => .ret .retryBackoff))
    (hNoPeer : M (.op .closeSocket fun _ => .op (.updateStatus (.state .failed)) fun _ => .ret .retryBackoff))
    (hRest : M ((handshake na c).bind (sessionAfter c))) : M (runOnce na c) := by
  apply hOp _ _ hStatus
  intro _
  apply hOp _ _ hCreate
  intro created
  cases created with
  | false => exact hNoSocket
  | true =>
      apply hOp _ _ hConnect
      intro connected
      cases connected with
      | false => exact hNoPeer
      | true => exact hRest

section Handshake

variable {na c} {P : Op → Prop}

theorem abandon_uses (hClose : P .closeSocket) (hFailed : P (.updateStatus (.state .failed))) {α : Type}
    (outcome : AttemptOutcome) : (abandon outcome : ConnProg (Except AttemptOutcome α)).Uses P :=
  ⟨hClose, fun _ => ⟨hFailed, fun _ => trivial⟩⟩

variable (na c) in
/-- A client looks at the clock and begins a run of Noise IK. What follows
uses the operations of that run and of its failure. -/
theorem initiateIk_starts (hIk : ∀ deadline o, (ikOp .ikMsg1 .ikMsg2 deadline o).Uses P)
    (hClose : P .closeSocket) (hFailed : P (.updateStatus (.state .failed))) (d : UInt64) (rs : Key32 UInt8) :
    ∃ next : Time → ConnProg (Except AttemptOutcome (UInt64 × IkResult UInt8)),
      initiateIk na c d rs = .op .now (fun now => .op (.remark (.ikStarts rs)) fun _ => next now) ∧
        ∀ now, (next now).Uses P := by
  refine ⟨fun now => ((runIkInitiator na c.ownStatic rs).interp
    (ikOp .ikMsg1 .ikMsg2 (now + kHandshakeTimeout))).bind _, rfl, fun now => ?_⟩
  refine (Prog.Uses.interp (hIk _) _).bind fun result => ?_
  cases result with
  | none => exact abandon_uses hClose hFailed _
  | some ik => exact trivial

theorem initiateIk_uses (hIk : ∀ deadline o, (ikOp .ikMsg1 .ikMsg2 deadline o).Uses P) (hNow : P .now)
    (hRemark : ∀ remark, P (.remark remark))
    (hClose : P .closeSocket) (hFailed : P (.updateStatus (.state .failed))) (d : UInt64) (rs : Key32 UInt8) :
    (initiateIk na c d rs).Uses P := by
  obtain ⟨next, hEq, hNext⟩ := initiateIk_starts na c hIk hClose hFailed d rs
  rw [hEq]
  exact ⟨hNow, fun now => ⟨hRemark _, fun _ => hNext now⟩⟩

end Handshake

theorem dispatch_uses (link : Link) (msgType : UInt8) (payload : List UInt8) :
    (dispatch link msgType payload).Uses IsAnswer := by
  unfold dispatch
  split
  · cases decodeAudioPort payload <;> simp [IsAnswer, IsSessionOp]
  split
  · cases decodeAudioSettings payload <;> simp [IsAnswer, IsSessionOp]
  split
  · simp [IsAnswer, IsSessionOp]
  split
  · exact (answerPing_uses (fun _ _ => trivial) payload).bind fun _ => trivial
  split
  · exact receivePong_uses trivial (fun _ => trivial) link payload
  split
  · simp [receiveClipboard, IsAnswer, IsSessionOp]
  split
  · cases Input.dispatchInputMessage msgType payload <;> simp [IsAnswer, IsSessionOp]
  · exact trivial

theorem checkMonitors_uses {P : Op → Prop} (hSend : ∀ msgType payload, P (.channelSend msgType payload))
    (hMonitors : P .getLocalMonitors) (x : Session) (now : Time) : (checkMonitors x now).Uses P := by
  unfold checkMonitors
  split
  · refine ⟨hMonitors, fun monitors => ?_⟩
    simp only [Prog.ret_bind]
    split <;> simp [hSend]
  · exact trivial

theorem rest_uses {P : Op → Prop} (hSend : ∀ msgType payload, P (.channelSend msgType payload))
    (hMonitors : P .getLocalMonitors) (hNow : P .now) (x : Session) (link : Link) :
    (sessionRound.rest c x link).Uses P := by
  refine ⟨hNow, fun now => ?_⟩
  simp only [Prog.ret_bind]
  split
  · exact trivial
  · exact (keepAlive_uses hSend link now).bind fun link =>
      (checkMonitors_uses hSend hMonitors _ now).bind fun _ => trivial

theorem sessionRound_uses (x : Session) : (sessionRound c x).Uses IsSessionOp := by
  have hRest : ∀ link, (sessionRound.rest c x link).Uses IsSessionOp :=
    rest_uses c (fun _ _ => trivial) trivial trivial x
  refine ⟨trivial, fun running => ?_⟩
  cases running with
  | false => exact trivial
  | true =>
      refine ⟨trivial, fun start => ⟨trivial, fun result => ?_⟩⟩
      cases result with
      | closed => exact trivial
      | timeout => exact hRest _
      | error => exact ⟨trivial, fun _ => hRest _⟩
      | ok msgType payload =>
          have hDispatch := fun link => (dispatch_uses link msgType payload).mono fun _ => isSession_of_answer
          exact ⟨trivial, fun now => (hDispatch _).bind hRest⟩

end TcpClient
end NoCapKVM.Discovery
