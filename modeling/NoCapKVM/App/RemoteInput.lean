import NoCapKVM.App.EventOrder
import NoCapKVM.Discovery.InputDispatch
import NoCapKVM.Discovery.SessionLoop

/-! From the frames of the Master to the calls that the Slave makes: the pump, the secure
channel and the message loop together. -/
namespace NoCapKVM.App.RemoteInput

open Thread Input Discovery
open Discovery.SecureChannel Discovery.ChannelDelivery Discovery.LostLink
open Discovery.SessionLoop (Endpoint sessionSystem InStep)

def message? : Effect → Option Message
  | .sendInput msgType payload => some ⟨msgType, payload⟩
  | _ => none

/-- The messages that frames hand to `send_input`, in order. -/
def transmitted : Desk → List Frame → List Message
  | _, [] => []
  | d, f :: frames => (d.effects f).filterMap message? ++ transmitted (d.frame f) frames

/-- The calls on the Slave that frames ask for, in order. -/
def asked : Desk → List Frame → List Injection
  | _, [] => []
  | d, f :: frames => (d.effects f).filterMap Effect.injection? ++ asked (d.frame f) frames

def injection? (m : Message) : Option Injection :=
  dispatchInputMessage m.msgType m.payload

/-- The messages of a frame ask for the calls that its effects stand for. -/
theorem injection_effect (effects : List Effect) :
    (effects.filterMap message?).filterMap injection? = effects.filterMap Effect.injection? := by
  rw [List.filterMap_filterMap]
  congr 1
  funext effect
  cases effect <;> rfl

/-- So the calls that are asked for can be read off the messages. -/
theorem asked_transmitted (d : Desk) (frames : List Frame) :
    (transmitted d frames).filterMap injection? = asked d frames := by
  induction frames generalizing d with
  | nil => rfl
  | cons f frames ih => rw [transmitted, asked, List.filterMap_append, injection_effect, ih]

/-- The messages of a connection: those of the frames in their order, and
between them others that ask for no call. -/
inductive Interleaved : List Message → List Message → Prop where
  | nil : Interleaved [] []
  | input {m : Message} {inputs msgs : List Message} (rest : Interleaved inputs msgs) :
      Interleaved (m :: inputs) (m :: msgs)
  | other {m : Message} {inputs msgs : List Message} (hOther : InputDispatch.IsOtherType m.msgType)
      (rest : Interleaved inputs msgs) : Interleaved inputs (m :: msgs)

/-- Other messages in between ask for no calls, and the order stays. -/
theorem Interleaved.injections {inputs msgs : List Message} (h : Interleaved inputs msgs) :
    msgs.filterMap injection? = inputs.filterMap injection? := by
  induction h with
  | nil => rfl
  | input _ ih => rw [List.filterMap_cons, List.filterMap_cons, ih]
  | @other m _ _ hOther _ ih =>
      have hNone : injection? m = none := InputDispatch.dispatch_other hOther m.payload
      rw [List.filterMap_cons_none hNone, ih]

variable {na : Sodium UInt8} {key : Key32 UInt8} {pieces : List Piece} {past : List ConnLabel} {e : Endpoint}

/-- The channel is read in step, and what was received has been injected, but
for the calls that are still due. -/
def Serving (na : Sodium UInt8) (key : Key32 UInt8) (pieces : List Piece) (calls : List Injection)
    (past : List ConnLabel) (e : Endpoint) : Prop :=
  InStep na key pieces past e ∧ Owed calls past e

/-- When the loop comes to a receive, no call is due. -/
def caughtUp (na : Sodium UInt8) (key : Key32 UInt8) (pieces : List Piece) : Op → Assertion Op Ans Action Endpoint
  | .channelReceive _ => Serving na key pieces []
  | _ => fun _ _ => True

/-- The calls are made by this thread alone, and so is the channel read. -/
theorem serving_stable (calls : List Injection) :
    Stable (sessionSystem na key timely) (Serving na key pieces calls) :=
  fun past e a e' h hEnv => ⟨SessionLoop.inStep_stable past e a e' h.1 hEnv, owed_stable calls past e a e' h.2 hEnv⟩

/-- Neither a receive nor a call. -/
def IsReply (o : Op) : Prop := IsAnswer o ∧ IsAside o

/-- The condition is about the receives only, where the loop waits. -/
theorem caughtUp_of_reply {o : Op} (hO : IsReply o) (past : List ConnLabel) (e : Endpoint) :
    caughtUp na key pieces o past e := by
  cases o with
  | channelReceive deadline => exact hO.1.elim
  | _ => trivial

/-- A reply to a message makes no call and reads nothing. -/
theorem serving_reply {o : Op} (hO : IsReply o) {calls : List Injection} {r : Ans o} {e' : Endpoint}
    (h : Serving na key pieces calls past e) (hExec : (sessionSystem na key timely).exec o e r e') :
    Serving na key pieces calls (.did o r :: past) e' := by
  obtain ⟨hMessage, hInjection⟩ := aside_silent hO.2 r
  exact ⟨SessionLoop.inStep_answer hO.1 h.1 hExec, owed_aside h.2 hMessage hInjection⟩

section Loop

variable {α : Type}

/-- So it may stand anywhere between two receives. -/
theorem serving_op {o : Op} {next : Ans o → ConnProg α} {Q : α → Assertion Op Ans Action Endpoint}
    {calls : List Injection} (hO : IsReply o) (h : Serving na key pieces calls past e)
    (hNext : ∀ r past e, Serving na key pieces calls past e →
      Safe (sessionSystem na key timely) (caughtUp na key pieces) (next r) Q past e) :
    Safe (sessionSystem na key timely) (caughtUp na key pieces) (.op o next) Q past e := by
  apply Safe.op (Serving na key pieces calls) (serving_stable calls) h (fun past e _ => caughtUp_of_reply hO past e)
  intro past e r e' h hExec
  exact hNext r _ e' (serving_reply hO h hExec)

/-- And so may a whole program of such operations. -/
theorem replies_safe {p : ConnProg α} (hP : p.Uses IsReply) {calls : List Injection}
    (h : Serving na key pieces calls past e) :
    Safe (sessionSystem na key timely) (caughtUp na key pieces) p (fun _ => Serving na key pieces calls) past e := by
  apply Safe.frame (Serving na key pieces calls) (serving_stable calls)
    (fun o past e hO _ => caughtUp_of_reply hO past e) _ hP h
  intro o past e r e' hO h hExec
  exact serving_reply hO h hExec

end Loop

/-- After a round the loop has caught up, or is over. -/
def AfterRound (na : Sodium UInt8) (key : Key32 UInt8) (pieces : List Piece) :
    TcpClient.Session ⊕ Unit → Assertion Op Ans Action Endpoint :=
  Sum.elim (fun _ => Serving na key pieces []) fun _ _ _ => True

theorem ended_safe : Safe (sessionSystem na key timely) (caughtUp na key pieces) (.ret (.inr ()))
    (AfterRound na key pieces) past e :=
  Safe.ret (fun _ _ _ _ _ _ => trivial) trivial

/-- The rest of a round makes no calls. -/
theorem rest_safe (c : TcpClient) (x : TcpClient.Session) (link : Link) (h : Serving na key pieces [] past e) :
    Safe (sessionSystem na key timely) (caughtUp na key pieces) (TcpClient.sessionRound.rest c x link)
      (AfterRound na key pieces) past e := by
  have hRest : (TcpClient.sessionRound.rest c x link).Uses IsReply :=
    TcpClient.rest_uses c (fun _ _ => ⟨trivial, trivial⟩) ⟨trivial, trivial⟩ ⟨trivial, trivial⟩ x link
  refine (replies_safe hRest h).mono fun r past e h => ?_
  cases r with
  | inl x => exact h
  | inr _ => trivial

/-- Dispatching a message makes the call it asks for. -/
theorem dispatch_serving (link : Link) (msgType : UInt8) (payload : List UInt8)
    (h : Serving na key pieces (dispatchInputMessage msgType payload).toList past e) :
    Safe (sessionSystem na key timely) (caughtUp na key pieces) (TcpClient.dispatch link msgType payload)
      (fun _ => Serving na key pieces []) past e := by
  cases hCall : dispatchInputMessage msgType payload with
  | none =>
      rw [hCall] at h
      exact replies_safe ((TcpClient.dispatch_uses link msgType payload).and (dispatch_aside link hCall)) h
  | some call =>
      rw [hCall] at h
      rw [dispatch_call link hCall]
      refine .op (Serving na key pieces [call]) (serving_stable [call]) h (fun _ _ _ => trivial)
        fun past e r e' h hExec => ?_
      refine Safe.ret (Q := fun _ => Serving na key pieces []) (serving_stable []) ⟨?_, ?_⟩
      · exact SessionLoop.inStep_answer trivial h.1 hExec
      · have hOwed := h.2
        unfold Owed at hOwed ⊢
        rw [received_cons, injected_cons]
        simpa [LostLink.message?, LostLink.injection?] using hOwed

/-- A receive that does not end the loop leaves the calls due that its message
asks for. -/
theorem serving_receive (hNa : na.AeadContract) {deadline : Time} {r : RecvResult} {e' : Endpoint}
    (h : Serving na key pieces [] past e)
    (hExec : (sessionSystem na key timely).exec (.channelReceive deadline) e r e') :
    r = .closed ∨ Serving na key pieces
      ((LostLink.message? (.did (.channelReceive deadline) r : ConnLabel)).bind fun m =>
        dispatchInputMessage m.1 m.2).toList (.did (.channelReceive deadline) r :: past) e' := by
  rcases SessionLoop.inStep_receive hNa h.1 hExec with hClosed | hStep
  · exact .inl hClosed
  · refine .inr ⟨hStep, ?_⟩
    have hOwed := h.2
    unfold Owed at hOwed ⊢
    rw [List.append_nil] at hOwed
    rw [received_cons, injected_cons, hOwed]
    cases r with
    | ok msgType payload =>
        simp only [LostLink.message?, LostLink.injection?, Option.toList_none, Option.toList_some, List.append_nil,
          requested, List.filterMap_append, List.filterMap_cons, List.filterMap_nil, Option.bind_some]
        cases dispatchInputMessage msgType payload <;> rfl
    | _ => simp [LostLink.message?, LostLink.injection?]

/-- A round makes the calls of the message that it receives, before it waits
for the next one. -/
theorem clientRound_serving (hNa : na.AeadContract) (c : TcpClient) (x : TcpClient.Session)
    (h : Serving na key pieces [] past e) :
    Safe (sessionSystem na key timely) (caughtUp na key pieces) (TcpClient.sessionRound c x)
      (AfterRound na key pieces) past e := by
  refine serving_op ⟨trivial, trivial⟩ h fun running past e h => ?_
  cases running with
  | false => exact ended_safe
  | true =>
      refine serving_op ⟨trivial, trivial⟩ h fun start past e h => ?_
      simp only [Prog.ret_bind]
      apply Safe.op (Serving na key pieces []) (serving_stable []) h (fun _ _ h => h)
      intro past e r e' h hExec
      rcases serving_receive hNa h hExec with rfl | h
      · exact ended_safe
      cases r with
      | closed => exact ended_safe
      | timeout => exact rest_safe c x _ h
      | error =>
          refine serving_op ⟨trivial, trivial⟩ h fun now past e h => ?_
          exact rest_safe c x _ h
      | ok msgType payload =>
          refine serving_op ⟨trivial, trivial⟩ h fun now past e h => ?_
          simp only [Prog.bind_def, Prog.ret_bind]
          refine Safe.bind ((dispatch_serving _ msgType payload h).mono fun link past e h => ?_)
          exact rest_safe c x link h

/-- So in every run of the loop, wherever it waits, the calls of all messages
received so far have been made. -/
theorem loop_serving (hNa : na.AeadContract) (c : TcpClient) (x : TcpClient.Session)
    (h : Serving na key pieces [] past e) :
    Safe (sessionSystem na key timely) (caughtUp na key pieces) (Prog.iterate x (TcpClient.sessionRound c))
      (fun _ _ _ => True) past e := by
  apply Safe.iterate (fun _ => Serving na key pieces []) (fun _ => serving_stable [])
    (fun _ _ _ _ _ _ _ => trivial) h
  intro x past e h
  exact (clientRound_serving hNa c x h).mono fun r past e h => by cases r <;> exact h

/-- The messages that ask for calls are those of the input protocol. -/
theorem received_eq (past : List ConnLabel) :
    (SessionLoop.delivered past).filterMap injection? = requested (LostLink.received past) := by
  unfold SessionLoop.delivered SessionLoop.results requested LostLink.received
  rw [List.filterMap_filterMap, List.filterMap_filterMap, List.filterMap_filterMap]
  congr 1
  funext l
  cases l with
  | env a => rfl
  | did o r =>
      cases o with
      | channelReceive deadline => cases r <;> rfl
      | _ => rfl

/-- If the results are those of messages, then these were delivered. -/
theorem delivered_of_results {past : List ConnLabel} {got : List Message}
    (h : SessionLoop.results past = (got.map Message.piece).map outcome) : SessionLoop.delivered past = got := by
  rw [SessionLoop.delivered, h, List.map_map, List.filterMap_map]
  exact List.filterMap_some

/-- Bytes are missing for as long as a frame is. -/
theorem left_of_incoming {nonce : UInt64} {left : List Message}
    (h : Stream na key nonce (left.map Message.piece) []) : left = [] := by
  cases left with
  | nil => rfl
  | cons m left =>
      generalize hBytes : ([] : List UInt8) = bytes at h
      cases h with
      | frame hShort hRest =>
          obtain ⟨hNil, -⟩ := List.append_eq_nil_iff.mp hBytes.symm
          simp [SecureChannel.frame, Codec.be32] at hNil

/-- The calls that the Slave has made when it waits for the next message are
those that the frames of the Master have asked for, in their order and none of
them twice. None is missing once everything is read. -/
theorem injected_as_asked (hNa : na.AeadContract) (d : Desk) (frames : List Frame) {msgs : List Message}
    {sender sent : Socket} {e e' : Endpoint} (c : TcpClient) (x : TcpClient.Session) {deadline : Time}
    {next : RecvResult → ConnProg Unit} (hInputs : Interleaved (transmitted d frames) msgs)
    (hShort : ∀ m ∈ msgs, m.payload.length ≤ kMaxFrameLen.toNat - 17) (hSent : Sends na key sender msgs sent)
    (hNonce : e.socket.recvNonce = sender.sendNonce) (hWire : sent.outgoing = sender.outgoing ++ e.socket.incoming)
    (run : Run (sessionSystem na key timely) (Prog.iterate x (TcpClient.sessionRound c)) e past
      (.op (.channelReceive deadline) next) e') :
    ∃ due, asked d frames = injected past ++ due ∧ (e'.socket.incoming = [] → due = []) := by
  obtain ⟨bytes, hBytes, hStream⟩ := hSent.stream hShort
  obtain rfl := List.append_cancel_left (hWire.symm.trans hBytes)
  rw [← hNonce] at hStream
  have hStart : Serving na key (msgs.map Message.piece) [] [] e := ⟨⟨[], _, rfl, rfl, hStream⟩, rfl⟩
  obtain ⟨⟨taken, rest, hPieces, hResults, hLeft⟩, hOwed⟩ := (loop_serving hNa c x hStart).ok_of_run run
  obtain ⟨got, left, rfl, rfl, rfl⟩ := List.map_eq_append_iff.mp hPieces
  have hInjected : injected past = got.filterMap injection? := by
    unfold Owed at hOwed
    rw [List.append_nil] at hOwed
    rw [hOwed, ← received_eq, delivered_of_results hResults]
  refine ⟨left.filterMap injection?, ?_, ?_⟩
  · rw [hInjected, ← List.filterMap_append, hInputs.injections, asked_transmitted]
  · intro hRead
    rw [hRead] at hLeft
    rw [left_of_incoming hLeft]
    rfl

def respondReceive (na : Sodium UInt8) (key : Key32 UInt8) (deadline : Time) (e : Endpoint)
    (cues : List (Cue Empty SocketChoice)) : Option (RecvResult × Endpoint) :=
  match timelyPlayer.play cues ⟨[], receive na key deadline, e.ready⟩ with
  | some ⟨_, .ret r, socket⟩ => some (r, ⟨{ e.world with clock := socket.clock }, socket⟩)
  | _ => none

def respond (na : Sodium UInt8) (key : Key32 UInt8) :
    (o : Op) → Endpoint → SessionLoop.SessionChoice → Option (Ans o × Endpoint)
  | .channelReceive deadline, e, .receive cues => respondReceive na key deadline e cues
  | .channelReceive _, _, _ => none
  | o, e, .world x => SessionLoop.respondWorld o e x
  | _, _, _ => none

/-- A receive that is played along its operations is one that the
channel can make. -/
theorem exec_of_respondReceive {deadline : Time} {e' : Endpoint} {cues : List (Cue Empty SocketChoice)}
    {r : RecvResult} (h : respondReceive na key deadline e cues = some (r, e')) :
    (sessionSystem na key timely).exec (.channelReceive deadline) e r e' := by
  unfold respondReceive at h
  split at h
  · rename_i past r' socket hPlay
    cases h
    exact ⟨⟨past, Player.play_run hPlay .start⟩, rfl⟩
  · cases h

/-- So every answer that is played is one that the session can get. -/
theorem exec_of_respond {o : Op} {e e' : Endpoint} {x : SessionLoop.SessionChoice} {r : Ans o}
    (h : respond na key o e x = some (r, e')) : (sessionSystem na key timely).exec o e r e' := by
  cases o with
  | channelReceive deadline =>
      cases x with
      | world x => cases h
      | receive cues => exact exec_of_respondReceive h
  | _ =>
      cases x with
      | receive cues => cases h
      | world x => exact SessionLoop.exec_of_respondWorld h

theorem env_of_react {a : Action} {e e' : Endpoint} (h : some { e with world := e.world.act a } = some e') :
    (sessionSystem na key timely).env a e e' :=
  (Option.some.inj h).symm

def player (na : Sodium UInt8) (key : Key32 UInt8) : Player (sessionSystem na key timely) SessionLoop.SessionChoice where
  respond := respond na key
  respond_exec := exec_of_respond
  react a e := some { e with world := e.world.act a }
  react_env := env_of_react

open SideBySide in
/-- The input is on the Slave. -/
def acrossDesk : Desk := [during [], swipeOut].foldl Desk.frame desk

open SideBySide in
def keyFrame : Frame := during [.keyboard true ⟨0x41, 0x1E, false, false⟩]

/-- A heartbeat goes first. -/
def keyMessages : List Message := ⟨kMsgHeartbeat, []⟩ :: transmitted acrossDesk [keyFrame]

def slave : TcpClient where
  ownDeviceId := 1
  ownStatic := plainKeypair 1
  peerIp := "192.168.0.2"
  peerPort := 5000
  giveUpAfter := seconds 5

def hearingKeys : Endpoint := SessionLoop.hearing (wireBytes plainSodium sessionKey 0 keyMessages)

def messageLoop : ConnProg Unit :=
  Prog.iterate ⟨SessionLoop.idleLink, [], 0⟩ (TcpClient.sessionRound slave)

/-- A round whose message is answered by `count` operations. -/
def round (count : Nat) : List (Cue Action SessionLoop.SessionChoice) :=
  .enter :: SessionLoop.does 2 ++ .answer (.receive readWhole) :: SessionLoop.does count

/-- The heartbeat and the move are dealt with, and the key is
still to be read. -/
def moved (c : Config Op Ans Action Endpoint Unit) : Bool :=
  match c.prog with
  | .op (.channelReceive _) _ => injected c.past = [.mouseAbsolute 10 540]
  | _ => false

/-- The Slave has made the move, and waits for the next message. -/
theorem exists_moved : ∃ past deadline next e',
    Run (sessionSystem plainSodium sessionKey timely) messageLoop hearingKeys past (.op (.channelReceive deadline) next) e' ∧
      injected past = [.mouseAbsolute 10 540] := by
  obtain ⟨past, p, e', hRun, hMoved⟩ := (player plainSodium sessionKey).exists_run messageLoop hearingKeys
    (round 2 ++ round 3 ++ .enter :: SessionLoop.does 2) moved (by decide +kernel)
  unfold moved at hMoved
  split at hMoved
  · rename_i deadline next hProg
    obtain rfl : p = .op (.channelReceive deadline) next := hProg
    exact ⟨past, deadline, next, e', hRun, of_decide_eq_true hMoved⟩
  · cases hMoved

/-- The heartbeat asks for no call, and the other messages are those
of the frames. -/
theorem interleaved_keys : Interleaved (transmitted acrossDesk [keyFrame]) keyMessages := by
  have hSame : ∀ msgs : List Message, Interleaved msgs msgs := fun msgs => by
    induction msgs with
    | nil => exact .nil
    | cons m msgs ih => exact .input ih
  refine .other (fun call => ?_) (hSame _)
  cases call with
  | mouseAbsolute x y => exact (by decide : kMsgHeartbeat ≠ kMsgMouseAbsolute)
  | mouseButton button down => exact (by decide : kMsgHeartbeat ≠ kMsgMouseButton)
  | mouseWheel delta => exact (by decide : kMsgHeartbeat ≠ kMsgMouseWheel)
  | key vk scancode down extended => exact (by decide : kMsgHeartbeat ≠ kMsgKey)
  | setModifiers mask => exact (by decide : kMsgHeartbeat ≠ kMsgModifierSync)

/-- Two calls are asked for. The move was made, and the key is due. -/
theorem injected_as_asked_move : ∃ past due,
    injected past = [.mouseAbsolute 10 540] ∧
      asked acrossDesk [keyFrame] = injected (past : List ConnLabel) ++ due ∧ due = [.key 0x41 0x1E true false] := by
  have hNa := plainSodium_contract.toAeadContract
  have hShort : ∀ m ∈ keyMessages, m.payload.length ≤ kMaxFrameLen.toNat - 17 := by decide +kernel
  obtain ⟨sent, hSent, hWire⟩ := exists_sends hNa sessionKey hShort {}
  obtain ⟨past, deadline, next, e', hRun, hInjected⟩ := exists_moved
  obtain ⟨due, hAsked, -⟩ := injected_as_asked hNa acrossDesk [keyFrame] (e := hearingKeys) slave
    ⟨SessionLoop.idleLink, [], 0⟩ interleaved_keys hShort hSent rfl hWire hRun
  have hBoth : asked acrossDesk [keyFrame] = [.mouseAbsolute 10 540, .key 0x41 0x1E true false] := by decide +kernel
  refine ⟨past, due, hInjected, hAsked, ?_⟩
  rw [hBoth, hInjected] at hAsked
  exact (List.cons.inj hAsked).2.symm

end NoCapKVM.App.RemoteInput
