import NoCapKVM.Discovery.Acceptance
import NoCapKVM.Discovery.AttemptPhases
import NoCapKVM.Input.HeldKeys

/-! The keys and buttons that a Slave has pressed when its connection ends. -/
namespace NoCapKVM.Discovery.LostLink

open Thread TcpClient Input

variable {Act S : Type}

/-- The message of a successful receive. -/
def message? : Label Op Ans Act → Option (UInt8 × List UInt8)
  | .did (.channelReceive _) (.ok msgType payload) => some (msgType, payload)
  | _ => none

def injection? : Label Op Ans Act → Option Injection
  | .did (.inject call) _ => some call
  | _ => none

/-- The messages received so far, in order. -/
def received (past : List (Label Op Ans Act)) : List (UInt8 × List UInt8) :=
  past.reverse.filterMap message?

/-- The calls of `inject.h` made so far, in order. -/
def injected (past : List (Label Op Ans Act)) : List Injection :=
  past.reverse.filterMap injection?

/-- The calls that messages ask for. -/
def requested (messages : List (UInt8 × List UInt8)) : List Injection :=
  messages.filterMap fun m => dispatchInputMessage m.1 m.2

/-- Only a receive that returns a message adds one. -/
theorem received_cons (l : Label Op Ans Act) (past : List (Label Op Ans Act)) :
    received (l :: past) = received past ++ (message? l).toList := by
  simp only [received, List.reverse_cons, List.filterMap_append, List.filterMap_cons, List.filterMap_nil]
  cases message? l <;> rfl

/-- Only a call of the injector adds a call. -/
theorem injected_cons (l : Label Op Ans Act) (past : List (Label Op Ans Act)) :
    injected (l :: past) = injected past ++ (injection? l).toList := by
  simp only [injected, List.reverse_cons, List.filterMap_append, List.filterMap_cons, List.filterMap_nil]
  cases injection? l <;> rfl

/-- What was received has been injected, but for the calls that
are still due. -/
def Owed (calls : List Injection) (past : List (Label Op Ans Act)) (_ : S) : Prop :=
  injected past ++ calls = requested (received past)

/-- Operations that neither receive nor inject. -/
def IsAside : Op → Prop
  | .channelReceive _ | .inject _ => False
  | _ => True

/-- Events of other kinds leave the calls that are due as they are. -/
theorem owed_aside {calls : List Injection} {past : List (Label Op Ans Act)} {s s' : S} {l : Label Op Ans Act}
    (h : Owed calls past s) (hMessage : message? l = none) (hInjection : injection? l = none) :
    Owed calls (l :: past) s' := by
  unfold Owed
  rw [received_cons, injected_cons, hMessage, hInjection]
  simp only [Option.toList_none, List.append_nil]
  exact h

/-- Operations that neither receive nor inject are such events. -/
theorem aside_silent {o : Op} (hO : IsAside o) (r : Ans o) :
    message? (.did o r : Label Op Ans Act) = none ∧ injection? (.did o r : Label Op Ans Act) = none := by
  cases o with
  | channelReceive => exact hO.elim
  | inject => exact hO.elim
  | _ => exact ⟨rfl, rfl⟩

variable {sys : System Op Ans Act S}

/-- The other threads neither receive nor inject. -/
theorem owed_stable (calls : List Injection) : Stable sys (Owed calls) :=
  fun _ _ _ _ h _ => owed_aside h rfl rfl

/-- No operation is ruled out. -/
abbrev anyOp (_ : Op) (_ : List (Label Op Ans Act)) (_ : S) : Prop := True

theorem owed_ret {α : Type} {a : α} {calls : List Injection} {past : List (Label Op Ans Act)} {s : S}
    (h : Owed calls past s) : Safe sys anyOp (.ret a) (fun _ => Owed calls) past s :=
  Safe.ret (Q := fun _ => Owed calls) (owed_stable calls) h

/-- A program without receives and calls leaves due what was due. -/
theorem aside_safe {α : Type} {p : ConnProg α} (hP : p.Uses IsAside) {calls : List Injection}
    {past : List (Label Op Ans Act)} {s : S} (h : Owed calls past s) :
    Safe sys anyOp p (fun _ => Owed calls) past s := by
  apply Safe.frame (Owed calls) (owed_stable calls) (fun _ _ _ _ _ => trivial) _ hP h
  intro o past s r s' hO h _
  exact owed_aside h (aside_silent hO r).1 (aside_silent hO r).2

/-- So these operations may stand anywhere between a message and its calls. -/
theorem owed_op {α : Type} {o : Op} {next : Ans o → ConnProg α} {Q : α → Assertion Op Ans Act S}
    {calls : List Injection} {past : List (Label Op Ans Act)} {s : S} (hO : IsAside o) (h : Owed calls past s)
    (hNext : ∀ r past s, Owed calls past s → Safe sys anyOp (next r) Q past s) :
    Safe sys anyOp (.op o next) Q past s := by
  apply Safe.op (Owed calls) (owed_stable calls) h (fun _ _ _ => trivial)
  intro past s r s' h _
  exact hNext r _ s' (owed_aside h (aside_silent hO r).1 (aside_silent hO r).2)

/-- A handshake makes no calls. -/
theorem isAside_of_step {o : Op} (h : IsHandshakeStep o) : IsAside o := by
  cases o <;> first
    | exact h.elim
    | trivial

/-- Nor does the rest of a round. -/
theorem rest_aside (c : TcpClient) (x : Session) (link : Link) : (sessionRound.rest c x link).Uses IsAside :=
  rest_uses c (fun _ _ => trivial) trivial trivial x link

/-- The messages that the loop deals with itself are no input messages. -/
theorem dispatchInputMessage_none {msgType : UInt8} (payload : List UInt8)
    (hOwn : msgType ∈ [kMsgAudioPort, kMsgAudioControl, kMsgGoAway, kMsgPing, kMsgPong, kMsgClipboardText,
      kMsgClipboardImage, kMsgHeartbeat]) : dispatchInputMessage msgType payload = none := by
  simp only [List.mem_cons, List.not_mem_nil, or_false] at hOwn
  rcases hOwn with rfl | rfl | rfl | rfl | rfl | rfl | rfl | rfl <;> rfl

/-- A message that asks for no call makes none. -/
theorem dispatch_aside (link : Link) {msgType : UInt8} {payload : List UInt8}
    (hNone : dispatchInputMessage msgType payload = none) : (dispatch link msgType payload).Uses IsAside := by
  unfold dispatch
  split
  · cases decodeAudioPort payload <;> simp [IsAside]
  split
  · cases decodeAudioSettings payload <;> simp [IsAside]
  split
  · simp [IsAside]
  split
  · exact (answerPing_uses (fun _ _ => trivial) payload).bind fun _ => trivial
  split
  · exact receivePong_uses trivial (fun _ => trivial) link payload
  split
  · simp [receiveClipboard, IsAside]
  split
  · rw [hNone]
    simp
  · exact trivial

/-- The call is made and nothing else is done. -/
theorem dispatch_call (link : Link) {msgType : UInt8} {payload : List UInt8} {call : Injection}
    (hCall : dispatchInputMessage msgType payload = some call) :
    dispatch link msgType payload = .op (.inject call) fun _ => .ret link := by
  have hOther : msgType ∉ [kMsgAudioPort, kMsgAudioControl, kMsgGoAway, kMsgPing, kMsgPong, kMsgClipboardText,
      kMsgClipboardImage, kMsgHeartbeat] := by
    intro hOwn
    rw [dispatchInputMessage_none payload hOwn] at hCall
    cases hCall
  simp only [List.mem_cons, List.not_mem_nil, or_false, not_or] at hOther
  simp only [dispatch, hOther, or_self, if_false, ne_eq, not_false_eq_true, if_true, hCall]
  rfl

/-- Dispatching a message makes the call it asks for. -/
theorem dispatch_safe (link : Link) (msgType : UInt8) (payload : List UInt8) {past : List (Label Op Ans Act)} {s : S}
    (h : Owed (dispatchInputMessage msgType payload).toList past s) :
    Safe sys anyOp (dispatch link msgType payload) (fun _ => Owed []) past s := by
  cases hCall : dispatchInputMessage msgType payload with
  | none =>
      rw [hCall] at h
      exact aside_safe (dispatch_aside link hCall) h
  | some call =>
      rw [hCall] at h
      rw [dispatch_call link hCall]
      refine .op (Owed [call]) (owed_stable [call]) h (fun _ _ _ => trivial) fun past s r s' h _ => ?_
      refine owed_ret ?_
      unfold Owed at h ⊢
      rw [received_cons, injected_cons]
      simpa [message?, injection?] using h

/-- A round makes the calls of the message that it has received, in their
order, and then owes nothing. -/
theorem sessionRound_safe (c : TcpClient) (x : Session) {past : List (Label Op Ans Act)} {s : S} (h : Owed [] past s) :
    Safe sys anyOp (sessionRound c x) (fun _ => Owed []) past s := by
  refine owed_op trivial h fun running past s h => ?_
  cases running with
  | false => exact owed_ret h
  | true =>
      refine owed_op trivial h fun start past s h => ?_
      simp only [Prog.ret_bind]
      refine .op (Owed []) (owed_stable []) h (fun _ _ _ => trivial) fun past s result s' h _ => ?_
      cases result with
      | closed => exact owed_ret (owed_aside h rfl rfl)
      | timeout => exact aside_safe (rest_aside c x x.link) (owed_aside h rfl rfl)
      | error =>
          refine owed_op trivial (owed_aside h rfl rfl) fun now past s h => ?_
          exact aside_safe (rest_aside c x _) h
      | ok msgType payload =>
          have hOwed : Owed (dispatchInputMessage msgType payload).toList
              (.did (.channelReceive (start + milliseconds 200)) (.ok msgType payload) :: past) s' := by
            unfold Owed at h ⊢
            rw [List.append_nil] at h
            rw [received_cons, injected_cons, h]
            simp only [message?, injection?, Option.toList_none, Option.toList_some, List.append_nil, requested,
              List.filterMap_append, List.filterMap_cons, List.filterMap_nil]
            cases dispatchInputMessage msgType payload <;> rfl
          refine owed_op trivial hOwed fun now past s h => ?_
          simp only [Prog.bind_def, Prog.ret_bind]
          refine Safe.bind ((dispatch_safe _ msgType payload h).mono fun link past s h => ?_)
          exact aside_safe (rest_aside c x link) h

/-- So in a session the calls are those of the messages. -/
theorem session_safe (c : TcpClient) (d : UInt64) (ik : IkResult UInt8) {past : List (Label Op Ans Act)} {s : S}
    (h : Owed [] past s) : Safe sys anyOp (session c d ik) (fun _ => Owed []) past s := by
  refine owed_op trivial h fun _ past s h => ?_
  refine owed_op trivial h fun _ past s h => ?_
  refine owed_op trivial h fun _ past s h => ?_
  refine owed_op trivial h fun monitors past s h => ?_
  refine owed_op trivial h fun _ past s h => ?_
  refine owed_op trivial h fun _ past s h => ?_
  refine owed_op trivial h fun _ past s h => ?_
  refine owed_op trivial h fun _ past s h => ?_
  refine owed_op trivial h fun _ past s h => ?_
  simp only [Prog.ret_bind]
  refine Safe.bind ((Safe.iterate (fun _ => Owed []) (fun _ => owed_stable []) (fun _ => owed_stable []) h ?_).mono ?_)
  · intro x past s h
    refine (sessionRound_safe c x h).mono ?_
    intro e past s h
    cases e <;> exact h
  · intro _ past s h
    exact aside_safe (by simp [IsAside]) h

/-- When an attempt returns, all calls that its messages asked for
have been made. -/
theorem runOnce_safe (na : Sodium UInt8) (c : TcpClient) (s : S) :
    Safe sys anyOp (runOnce na c) (fun _ => Owed []) [] s := by
  have hStart : Owed [] ([] : List (Label Op Ans Act)) s := rfl
  apply runOnce_cases na c (C := IsAside)
    (M := fun p => ∀ past s, Owed [] past s → Safe sys anyOp p (fun _ => Owed []) past s)
    (fun o next hO hNext past s h => owed_op hO h hNext) trivial trivial trivial
  · exact fun past s h => aside_safe (by simp [IsAside]) h
  · exact fun past s h => aside_safe (by simp [IsAside]) h
  · intro past s h
    have hHandshake : (handshake na c).Uses IsHandshakeStep := handshake_steps
    refine Safe.bind ((aside_safe (hHandshake.mono fun _ => isAside_of_step) h).mono fun result past s h => ?_)
    cases result with
    | error outcome => exact owed_ret h
    | ok result => exact session_safe c _ _ h
  · exact hStart

/-- Calls, each with whether a missing device can be created at
that moment. -/
def timed (created : Nat → Bool) (calls : List Injection) : List TimedCall :=
  calls.zipIdx.map fun call => (created call.2, call.1)

/-- The state of the injector with what is written from now on. -/
def unwritten (u : Injector) : Injector :=
  { u with keyboard := [], mouse := [] }

/-- When an attempt returns, whatever its peer sent and however it
ended, no key and no button that it has pressed is left pressed if and
only if every press among the messages of its session was followed by a
release among them. -/
theorem lost_link_releases_iff {na : Sodium UInt8} {c : TcpClient} {init s : S} {past : List (Label Op Ans Act)}
    {outcome : AttemptOutcome} (hRun : Run sys (runOnce na c) init past (.ret outcome) s) (u : Injector)
    (created : Nat → Bool) :
    let v := (unwritten u).injectAll (timed created (injected past))
    ((∀ code, ¬ Held v.keyboard code) ∧ ∀ code, ¬ Held v.mouse code) ↔
      PressesReleased u (timed created (requested (received past))) := by
  intro v
  have hAll : injected past ++ [] = requested (received past) := (runOnce_safe na c init).result hRun
  rw [List.append_nil] at hAll
  have hHeld := Injector.injectAll_held (u := unwritten u) rfl rfl (timed created (injected past))
  rw [← hAll]
  constructor
  · rintro ⟨hKeys, hButtons⟩
    exact ⟨fun code h => hKeys code ((hHeld code).1.mpr h), fun code h => hButtons code ((hHeld code).2.mpr h)⟩
  · rintro ⟨hKeys, hButtons⟩
    exact ⟨fun code h => hKeys code ((hHeld code).1.mp h), fun code h => hButtons code ((hHeld code).2.mp h)⟩

section Instance

open ConnectedAgreement

/-- The key A goes down, or up. -/
def keyA (down : Bool) : Choice :=
  .message (.ok kMsgKey (encodeKey 0x41 0x1E down false))

/-- A session in which the Master sends a key press, perhaps a
release, and leaves. -/
def pressCues (released : Bool) : List (Cue Action Choice) :=
  List.replicate 12 (.answer .usual) ++ .answer (.keypair (plainKeypair 3)) ::
    List.replicate 11 (.answer .usual) ++
    [.enter, .answer .usual, .answer .usual, .answer (keyA true), .answer .usual, .answer .usual, .answer .usual] ++
    (if released then
      [.enter, .answer .usual, .answer .usual, .answer (keyA false), .answer .usual, .answer .usual, .answer .usual]
      else []) ++
    [.enter, .answer .usual, .answer .usual, .answer (.message .closed), .answer .usual, .answer .usual,
      .answer .usual]

/-- The Master presses a key and leaves, perhaps after it has
released the key. -/
theorem exists_session (released : Bool) : ∃ past outcome s,
    Run (connSystem fun _ => True) (runOnce plainSodium slaveClient) slaveWorld past (.ret outcome) s ∧
      injected past = .key 0x41 0x1E true false :: if released then [.key 0x41 0x1E false false] else [] := by
  obtain ⟨past, p, s, hRun, hCheck⟩ := (connPlayer fun _ => True).exists_run (slaveClient.runOnce plainSodium) slaveWorld
    (pressCues released) (fun c => c.prog.ended && decide (injected c.past = .key 0x41 0x1E true false ::
      if released then [.key 0x41 0x1E false false] else [])) (by cases released <;> decide +kernel)
  obtain ⟨hEnded, hInjected⟩ := Bool.and_eq_true_iff.mp hCheck
  obtain ⟨outcome, rfl⟩ := Prog.eq_ret_of_ended hEnded
  exact ⟨past, outcome, s, hRun, of_decide_eq_true hInjected⟩

/-- Where it has, nothing is down when the connection is lost. -/
theorem lost_link_releases_iff_released : ∃ past outcome s,
    Run (connSystem fun _ => True) (runOnce plainSodium slaveClient) slaveWorld past (.ret outcome) s ∧
      PressesReleased {} (timed (fun _ => true) (requested (received past))) := by
  obtain ⟨past, outcome, s, hRun, hInjected⟩ := exists_session true
  refine ⟨past, outcome, s, hRun, (lost_link_releases_iff hRun {} fun _ => true).mp ?_⟩
  rw [hInjected]
  let v := (unwritten {}).injectAll (timed (fun _ => true) [.key 0x41 0x1E true false, .key 0x41 0x1E false false])
  have hKeys : ∀ e ∈ v.keyboard, ¬ Held v.keyboard e.code := by decide +kernel
  have hButtons : v.mouse = [] := by decide +kernel
  constructor
  · intro code hHeld
    obtain ⟨e, hMem, rfl⟩ := Injector.mem_of_held hHeld
    exact hKeys e hMem hHeld
  · intro code hHeld
    obtain ⟨e, hMem, -⟩ := Injector.mem_of_held hHeld
    exact List.not_mem_nil (hButtons ▸ hMem)

/-- The key A is pressed, the Master leaves, and the key stays down. -/
theorem lost_link_keeps_key :
    ¬ ∀ (na : Sodium UInt8) (c : TcpClient) (init s : World) (past : List ConnLabel) (outcome : AttemptOutcome)
        (u : Injector) (created : Nat → Bool),
      Run (connSystem fun _ => True) (runOnce na c) init past (.ret outcome) s →
        ∀ code, ¬ Held ((unwritten u).injectAll (timed created (injected past))).keyboard code := by
  intro hAll
  obtain ⟨past, outcome, s, hRun, hInjected⟩ := exists_session false
  have hUp := hAll _ _ _ _ _ _ {} (fun _ => true) hRun 30
  rw [hInjected] at hUp
  exact hUp (by decide +kernel)

end Instance

end NoCapKVM.Discovery.LostLink
