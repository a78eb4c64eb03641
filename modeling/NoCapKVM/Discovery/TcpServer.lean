import NoCapKVM.Discovery.Operations
import NoCapKVM.Thread.Safety

/-! `tcp_server.cpp`: the thread of the listening side, the Master. -/
namespace NoCapKVM.Discovery

open Thread

/-- What a `TcpServer` is constructed with, and the port of its
audio socket. -/
structure TcpServer where
  ownDeviceId : UInt64
  ownStatic : Keypair UInt8
  audioPort : UInt16

namespace TcpServer

variable (na : Sodium UInt8) (c : TcpServer)

/-- A connection that ends before any status was published for it. -/
def drop {α : Type} : ConnProg (Option α) := do
  perform .closeSocket
  return none

/-- A connection that ends with the status reset. -/
def reset {α : Type} : ConnProg (Option α) := do
  perform .closeSocket
  perform (.assignStatus {})
  return none

/-- Poll the user's decision until the deadline. -/
def awaitDecision (approvalDeadline : Time) : ConnProg PairingDecision :=
  Prog.iterate () fun _ => do
    if !(← perform .loadRunning) then return .inr .pending
    if (← perform .now) ≥ approvalDeadline then return .inr .pending
    let decision ← perform .loadDecision
    if decision ≠ .pending then return .inr decision
    perform (.sleepFor (milliseconds 100))
    return .inl ()

/-- Publish a pairing request, forget earlier decisions, and wait for one. -/
def prompt (ip : String) (peerDeviceId : UInt64) (peerPubkey : Key32 UInt8) :
    ConnProg PairingDecision := do
  perform (.assignStatus { state := .pairing, peerDeviceId := peerDeviceId, peerIp := ip,
                           pairingFingerprint :=
                             computeFingerprint na peerPubkey c.ownStatic.publicKey })
  perform (.storeDecision .pending)
  let start ← perform .now
  awaitDecision (start + kPairingApprovalTimeout)

/-- The branch of `run` that pairs. An approved key is stored. -/
def pair (ip : String) (peerDeviceId : UInt64) : ConnProg (Option (Key32 UInt8)) := do
  let deadline := (← perform .now) + kHandshakeTimeout
  let some peerRawPubkey ← exchange .rawPubkey c.ownStatic.publicKey.val 32 deadline | drop
  let decision ← prompt na c ip peerDeviceId peerRawPubkey
  let decisionByte := if decision = .approved then kPairingApproved else kPairingRejected
  let _ ← perform (.sendAll .decision [decisionByte])
  if decision ≠ .approved then reset
  else
    perform (.remember peerDeviceId peerRawPubkey)
    return some peerRawPubkey

def respondIk (peerDeviceId : UInt64) (trustedPubkey : Key32 UInt8) :
    ConnProg (Option (UInt64 × IkResult UInt8)) := do
  let deadline := (← perform .now) + kHandshakeTimeout
  perform (.remark (.ikStarts trustedPubkey))
  match ← (runIkResponder na c.ownStatic).interp (ikOp .ikMsg2 .ikMsg1 deadline) with
  | none => reset
  | some ik =>
      perform (.remark (.ikSucceeded ik.peerStatic))
      if trustedPubkey ≠ ik.peerStatic then reset
      else return some (peerDeviceId, ik)

/-- One iteration of `run` from the accepted socket to the result of the
handshake. -/
def handshake (ip : String) : ConnProg (Option (UInt64 × IkResult UInt8)) := do
  let deadline := (← perform .now) + kHandshakeTimeout
  let some peerBytes ← exchange .deviceId (encodeDeviceId c.ownDeviceId).val 8 deadline | drop
  let peerDeviceId := decodeDeviceId peerBytes
  let trustedPubkey ← perform (.getPubkey peerDeviceId)
  let ownWantsPairing : UInt8 := if trustedPubkey.isSome then 0 else 1
  let deadline := (← perform .now) + kHandshakeTimeout
  let some peerWantsPairing ← exchange .pairingFlag [ownWantsPairing] 1 deadline | drop
  match trustedPubkey, peerWantsPairing.only != 0 with
  | some trustedPubkey, false => respondIk na c peerDeviceId trustedPubkey
  | _, _ =>
      match ← pair na c ip peerDeviceId with
      | none => return none
      | some trustedPubkey => respondIk na c peerDeviceId trustedPubkey

/-- What follows a pairing. -/
def respondAfter (peerDeviceId : UInt64) : Option (Key32 UInt8) → ConnProg (Option (UInt64 × IkResult UInt8))
  | none => return none
  | some trustedPubkey => respondIk na c peerDeviceId trustedPubkey

/-- The gate for a device that was kicked in this session. -/
def reapprove (ip : String) (peerDeviceId : UInt64) (ik : IkResult UInt8) :
    ConnProg (Option Unit) := do
  if ← perform (.kickedCount peerDeviceId) then
    let decision ← prompt na c ip peerDeviceId ik.peerStatic
    if decision ≠ .approved then
      let _ ← perform (.channelSend kMsgGoAway [])
      reset
    else
      perform (.kickedErase peerDeviceId)
      return some ()
  else return some ()

/-- One received message. -/
def dispatch (link : Link) (msgType : UInt8) (payload : List UInt8) : ConnProg Link := do
  if msgType = kMsgMonitorList then
    match decodeMonitorList payload with
    | some monitors => perform (.updateStatus (.peerMonitors monitors))
    | none => pure ()
    return link
  else if msgType = kMsgAudioStatus then
    match decodeAudioSettings payload with
    | some settings => perform (.updateStatus (.peerAudio settings))
    | none => pure ()
    return link
  else if msgType = kMsgPing then
    answerPing payload
    return link
  else if msgType = kMsgPong then
    receivePong link payload
  else if msgType = kMsgClipboardText ∨ msgType = kMsgClipboardImage then
    receiveClipboard msgType payload
    return link
  else return link

/-- One round of the message loop. -/
def sessionRound (link : Link) : ConnProg (Link ⊕ Unit) := do
  if !(← perform .loadRunning) then return .inr ()
  if ← perform .loadDisconnect then return .inr ()
  let start ← perform .now
  match ← perform (.channelReceive (start + milliseconds 200)) with
  | .closed => return .inr ()
  | .timeout => rest link
  | .error => rest { link with lastHeard := ← perform .now }
  | .ok msgType payload => rest (← dispatch { link with lastHeard := ← perform .now } msgType payload)
where
  /-- A round once its message is dealt with. -/
  rest (link : Link) : ConnProg (Link ⊕ Unit) := do
    let now ← perform .now
    let heartbeatTimeout ← perform .loadHeartbeatTimeout
    if now - link.lastHeard ≥ heartbeatTimeout then return .inr ()
    return .inl (← keepAlive link now)

/-- One iteration of `run` from `Connected` to the end of the connection. -/
def session (ip : String) (peerDeviceId : UInt64) (ik : IkResult UInt8) : ConnProg Unit := do
  perform (.assignStatus { state := .connected, peerDeviceId := peerDeviceId, peerIp := ip,
                           audioKey := ik.keys.recvKey })
  perform (.setActiveChannel true)
  let _ ← perform (.channelSend kMsgAudioPort (encodeAudioPort c.audioPort))
  perform (.storeDisconnect false)
  let lastHeard ← perform .now
  let lastHeartbeatSent ← perform .now
  let lastPingSent ← perform .now
  Prog.iterate { lastHeard := lastHeard, lastHeartbeatSent := lastHeartbeatSent,
                 lastPingSent := lastPingSent } sessionRound
  if ← perform .loadDisconnect then
    let _ ← perform (.channelSend kMsgGoAway [])
    perform (.kickedInsert peerDeviceId)
  perform (.setActiveChannel false)
  perform .closeSocket
  perform (.assignStatus {})

/-- One accepted connection, from its first to its last byte. -/
def serve (ip : String) : ConnProg Unit := do
  let some (peerDeviceId, ik) ← handshake na c ip | return
  perform (.openChannel ik.keys)
  let some () ← reapprove na c ip peerDeviceId ik | return
  session c ip peerDeviceId ik

def run : ConnProg Unit :=
  Prog.iterate () fun _ => do
    if !(← perform .loadRunning) then return .inr ()
    if !(← perform (.waitReadable (milliseconds 200))) then return .inl ()
    let some ip ← perform .accept | return .inl ()
    serve na c ip
    return .inl ()

/-- After the pairing flags a server runs IK with the key it trusts, or
pairs first. -/
theorem branch_cases {P : ConnProg (Option (UInt64 × IkResult UInt8)) → Prop} (ip : String) (d : UInt64)
    (trustedPubkey : Ans (.getPubkey d)) (wantsPairing : Bool) : P ((pair na c ip d).bind (respondAfter na c d)) →
    (∀ k, trustedPubkey = some k → wantsPairing = false → P (respondIk na c d k)) →
    P (match trustedPubkey, wantsPairing with
      | some trustedPubkey, false => respondIk na c d trustedPubkey
      | _, _ => do
          match ← pair na c ip d with
          | none => return none
          | some trustedPubkey => respondIk na c d trustedPubkey) := by
  intro hPair hStored
  cases trustedPubkey with
  | none => exact hPair
  | some k =>
      cases wantsPairing with
      | true => exact hPair
      | false => exact hStored k rfl rfl

variable {na c} in
/-- A pairing, and the handshake with the key that it has given. -/
theorem pair_respond_safe {Act S : Type} {sys : System Op Ans Act S} {ok : Op → Assertion Op Ans Act S}
    {ip : String} {d : UInt64} {R : Option (Key32 UInt8) → Assertion Op Ans Act S}
    {Q : Option (UInt64 × IkResult UInt8) → Assertion Op Ans Act S} {past : List (Label Op Ans Act)} {s : S}
    (hPair : Safe sys ok (pair na c ip d) R past s)
    (hNone : ∀ past s, R none past s → Safe sys ok (.ret none) Q past s)
    (hSome : ∀ k past s, R (some k) past s → Safe sys ok (respondIk na c d k) Q past s) :
    Safe sys ok ((pair na c ip d).bind (respondAfter na c d)) Q past s := by
  refine Safe.bind (hPair.mono fun result past s h => ?_)
  cases result with
  | none => exact hNone past s h
  | some k => exact hSome k past s h

section Handshake

variable {na c} {P : Op → Prop}

theorem drop_uses (hClose : P .closeSocket) {α : Type} : (drop : ConnProg (Option α)).Uses P :=
  ⟨hClose, fun _ => trivial⟩

theorem reset_uses (hClose : P .closeSocket) (hIdle : P (.assignStatus {})) {α : Type} :
    (reset : ConnProg (Option α)).Uses P :=
  ⟨hClose, fun _ => ⟨hIdle, fun _ => trivial⟩⟩

variable (na c) in
/-- A server looks at the clock and begins a run of Noise IK. What follows
uses the operations of that run, of its result and of its failure. -/
theorem respondIk_starts (hIk : ∀ deadline o, (ikOp .ikMsg2 .ikMsg1 deadline o).Uses P)
    (hSucceeded : ∀ k, P (.remark (.ikSucceeded k))) (hClose : P .closeSocket) (hIdle : P (.assignStatus {}))
    (d : UInt64) (trustedPubkey : Key32 UInt8) :
    ∃ next : Time → ConnProg (Option (UInt64 × IkResult UInt8)),
      respondIk na c d trustedPubkey =
        .op .now (fun now => .op (.remark (.ikStarts trustedPubkey)) fun _ => next now) ∧
        ∀ now, (next now).Uses P := by
  refine ⟨fun now => ((runIkResponder na c.ownStatic).interp
    (ikOp .ikMsg2 .ikMsg1 (now + kHandshakeTimeout))).bind _, rfl, fun now => ?_⟩
  refine (Prog.Uses.interp (hIk _) _).bind fun result => ?_
  cases result with
  | none => exact reset_uses hClose hIdle
  | some ik =>
      refine ⟨hSucceeded _, fun _ => ?_⟩
      simp only [Prog.ret_bind]
      split
      · exact reset_uses hClose hIdle
      · exact trivial

/-- What a key exchange of the server performs are its transfers, looks at the
clock and remarks, and the end of a connection that fails. -/
theorem respondIk_uses (hIk : ∀ deadline o, (ikOp .ikMsg2 .ikMsg1 deadline o).Uses P) (hNow : P .now)
    (hRemark : ∀ remark, P (.remark remark))
    (hClose : P .closeSocket) (hIdle : P (.assignStatus {})) (d : UInt64) (trustedPubkey : Key32 UInt8) :
    (respondIk na c d trustedPubkey).Uses P := by
  obtain ⟨next, hEq, hNext⟩ := respondIk_starts na c hIk (fun _ => hRemark _) hClose hIdle d trustedPubkey
  rw [hEq]
  exact ⟨hNow, fun now => ⟨hRemark _, fun _ => hNext now⟩⟩

end Handshake

/-- The operations of a question to the user. -/
def IsPromptOp : Op → Prop
  | .loadRunning | .now | .loadDecision | .sleepFor _ | .storeDecision _ => True
  | .assignStatus info => info.state = .pairing ∧ info.Bare
  | _ => False

/-- A wait for the user performs nothing but the operations of a prompt. -/
theorem awaitDecision_uses (approvalDeadline : Time) : (awaitDecision approvalDeadline).Uses IsPromptOp := by
  refine ⟨fun _ => ⟨trivial, fun running => ?_⟩, fun _ => trivial⟩
  cases running with
  | false => exact trivial
  | true =>
      refine ⟨trivial, fun now => ?_⟩
      simp only [Prog.ret_bind]
      split
      · exact trivial
      · refine ⟨trivial, fun decision => ?_⟩
        simp only [Prog.ret_bind]
        split
        · exact trivial
        · exact ⟨trivial, fun _ => trivial⟩

/-- So does a whole prompt. -/
theorem prompt_uses (ip : String) (peerDeviceId : UInt64) (peerPubkey : Key32 UInt8) :
    (prompt na c ip peerDeviceId peerPubkey).Uses IsPromptOp :=
  ⟨⟨rfl, rfl⟩, fun _ => ⟨trivial, fun _ => ⟨trivial, fun _ => awaitDecision_uses _⟩⟩⟩

/-- What a server performs for a received message. -/
theorem dispatch_performs {P : Op → Prop} (hSend : ∀ msgType payload, P (.channelSend msgType payload)) (hNow : P .now)
    (hMonitors : ∀ monitors, P (.updateStatus (.peerMonitors monitors)))
    (hAudio : ∀ settings, P (.updateStatus (.peerAudio settings))) (hRtt : ∀ ms, P (.updateStatus (.lastRttMs ms)))
    (hClipboard : ∀ message, P (.setPendingClipboard message)) (link : Link) (msgType : UInt8) (payload : List UInt8) :
    (dispatch link msgType payload).Uses P := by
  unfold dispatch
  split
  · cases decodeMonitorList payload <;> simp [hMonitors]
  split
  · cases decodeAudioSettings payload <;> simp [hAudio]
  split
  · exact (answerPing_uses hSend payload).bind fun _ => trivial
  split
  · exact receivePong_uses hNow hRtt link payload
  split
  · simp [receiveClipboard, hClipboard]
  · exact trivial

/-- A message is dealt with by an answer, if by anything. -/
theorem dispatch_uses (link : Link) (msgType : UInt8) (payload : List UInt8) :
    (dispatch link msgType payload).Uses IsAnswer :=
  dispatch_performs (fun _ _ => trivial) trivial (fun _ => trivial) (fun _ => trivial) (fun _ => trivial)
    (fun _ => trivial) link msgType payload

/-- So is a round without one. -/
theorem rest_uses (link : Link) : (sessionRound.rest link).Uses IsAnswer := by
  refine ⟨trivial, fun now => ⟨trivial, fun heartbeatTimeout => ?_⟩⟩
  simp only [Prog.ret_bind]
  split
  · exact trivial
  · exact (keepAlive_uses (fun _ _ => trivial) link now).bind fun _ => trivial

/-- A round performs only operations of a session. -/
theorem sessionRound_uses (link : Link) : (sessionRound link).Uses IsSessionOp := by
  have hRest := fun link => (rest_uses link).mono fun _ => isSession_of_answer
  refine ⟨trivial, fun running => ?_⟩
  cases running with
  | false => exact trivial
  | true =>
      refine ⟨trivial, fun requested => ?_⟩
      cases requested with
      | true => exact trivial
      | false =>
          refine ⟨trivial, fun start => ⟨trivial, fun result => ?_⟩⟩
          cases result with
          | closed => exact trivial
          | timeout => exact hRest _
          | error => exact ⟨trivial, fun _ => hRest _⟩
          | ok msgType payload =>
              have hDispatch := fun link => (dispatch_uses link msgType payload).mono fun _ => isSession_of_answer
              exact ⟨trivial, fun now => (hDispatch _).bind hRest⟩

/-- A session publishes the connection and then uses the operations of a
message loop and of the end of a connection. -/
theorem session_cases {M : ConnProg Unit → Prop} {P : Op → Prop} (hSession : ∀ o, IsSessionOp o → P o)
    (hChannel : ∀ active, P (.setActiveChannel active)) (hDisconnect : P (.storeDisconnect false))
    (hClose : P .closeSocket) (hReset : P (.assignStatus {})) {ip : String} {d : UInt64} {ik : IkResult UInt8}
    (hKick : P (.kickedInsert d))
    (hPublish : ∀ next, (∀ r, (next r).Uses P) →
      M (.op (.assignStatus { state := .connected, peerDeviceId := d, peerIp := ip, audioKey := ik.keys.recvKey }) next)) :
    M (session c ip d ik) := by
  have hRound := fun link => (sessionRound_uses link).mono hSession
  apply hPublish
  intro _
  refine ⟨hChannel true, fun _ => ⟨hSession _ trivial, fun _ => ⟨hDisconnect, fun _ => ⟨hSession _ trivial, fun _ =>
    ⟨hSession _ trivial, fun _ => ⟨hSession _ trivial, fun _ => ⟨hRound, fun _ => ⟨hSession _ trivial,
    fun requested => ?_⟩⟩⟩⟩⟩⟩⟩⟩
  have hEnd := And.intro (hChannel false) fun _ : Unit =>
    And.intro hClose fun _ : Unit => And.intro hReset fun _ : Unit => trivial
  cases requested with
  | false => exact hEnd
  | true => exact ⟨hSession _ trivial, fun _ => ⟨hKick, fun _ => hEnd⟩⟩

section Rules

variable {Act S : Type} {sys : System Op Ans Act S} {ok : Op → Assertion Op Ans Act S} {C : Op → Prop}

/-- The rule for the wait on a decision: `W` holds while there is none, `D` of
the outcome. -/
theorem awaitDecision_rule {W : Assertion Op Ans Act S} {D : PairingDecision → Assertion Op Ans Act S}
    (hW : Stable sys W) (hD : ∀ decision, Stable sys (D decision))
    (hOp : ∀ {o : Op} {next : Ans o → ConnProg (Unit ⊕ PairingDecision)} {Q past s}, C o → W past s →
      (∀ r past s, W past s → Safe sys ok (next r) Q past s) → Safe sys ok (.op o next) Q past s)
    (hRunning : C .loadRunning) (hNow : C .now) (hSleep : ∀ duration, C (.sleepFor duration))
    (hPending : ∀ past s, W past s → D .pending past s) (hOk : ∀ past s, W past s → ok .loadDecision past s)
    (hNone : ∀ past s s', W past s → sys.exec .loadDecision s .pending s' → W (.did .loadDecision .pending :: past) s')
    (hLoad : ∀ past s decision s', W past s → sys.exec .loadDecision s decision s' →
      D decision (.did .loadDecision decision :: past) s')
    (approvalDeadline : Time) {past : List (Label Op Ans Act)} {s : S} (h : W past s) :
    Safe sys ok (awaitDecision approvalDeadline) D past s := by
  refine .iterate (fun _ => W) (fun _ => hW) hD h fun _ past s h => ?_
  have hEnd : ∀ past s, W past s →
      Safe sys ok (.ret (.inr .pending)) (fun e => Sum.elim (fun _ : Unit => W) D e) past s :=
    fun past s h => Safe.ret (a := Sum.inr PairingDecision.pending) (hD .pending) (hPending past s h)
  refine hOp hRunning h fun running past s h => ?_
  cases running with
  | false => exact hEnd past s h
  | true =>
      refine hOp hNow h fun now past s h => ?_
      by_cases hLate : now ≥ approvalDeadline
      · simp only [Prog.ret_bind, hLate, if_true]
        exact hEnd past s h
      · simp only [Prog.ret_bind, hLate, if_false]
        refine .op W hW h hOk fun past s decision s' h hExec => ?_
        by_cases hDecision : decision = .pending
        · subst hDecision
          refine hOp (hSleep _) (hNone past s s' h hExec) fun _ past s h => ?_
          exact Safe.ret (a := Sum.inl ()) hW h
        · simp only [Prog.ret_bind, hDecision, ne_eq, not_false_eq_true, if_true]
          exact Safe.ret (a := Sum.inr decision) (hD decision) (hLoad past s decision s' h hExec)

/-- The rule for the server thread: `I` holds whenever no
connection is served. -/
theorem run_rule {I : Assertion Op Ans Act S} (hI : Stable sys I)
    (hOp : ∀ {o : Op} {next : Ans o → ConnProg (Unit ⊕ Unit)} {Q past s}, C o → I past s →
      (∀ r past s, I past s → Safe sys ok (next r) Q past s) → Safe sys ok (.op o next) Q past s)
    (hRunning : C .loadRunning) (hReadable : ∀ timeout, C (.waitReadable timeout))
    (hOk : ∀ past s, I past s → ok .accept past s)
    (hNone : ∀ past s s', I past s → sys.exec .accept s none s' → I (.did .accept none :: past) s')
    (hServe : ∀ past s ip s', I past s → sys.exec .accept s (some ip) s' →
      Safe sys ok (serve na c ip) (fun _ => I) (.did .accept (some ip) :: past) s')
    {past : List (Label Op Ans Act)} {s : S} (h : I past s) : Safe sys ok (run na c) (fun _ => I) past s := by
  refine Safe.iterate (fun _ => I) (fun _ => hI) (fun _ => hI) h fun _ past s h => ?_
  have hDone : ∀ (e : Unit ⊕ Unit) past s, I past s →
      Safe sys ok (.ret e) (fun e => Sum.elim (fun _ => I) (fun _ => I) e) past s := by
    intro e past s h
    cases e <;> exact Safe.ret (a := _) hI h
  refine hOp hRunning h fun running past s h => ?_
  cases running with
  | false => exact hDone _ past s h
  | true =>
      refine hOp (hReadable _) h fun readable past s h => ?_
      cases readable with
      | false => exact hDone _ past s h
      | true =>
          refine .op I hI h hOk fun past s accepted s' h hExec => ?_
          cases accepted with
          | none => exact hDone _ _ _ (hNone past s s' h hExec)
          | some ip =>
              simp only [Prog.bind_def, Prog.ret_bind]
              exact Safe.bind ((hServe past s ip s' h hExec).mono fun _ past s h => hDone (.inl ()) past s h)

end Rules

end TcpServer
end NoCapKVM.Discovery
