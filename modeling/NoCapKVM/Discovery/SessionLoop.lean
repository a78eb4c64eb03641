import NoCapKVM.Discovery.ChannelDelivery
import NoCapKVM.Discovery.Playback

/-! The message loops of both sides on the byte stream of their channel: whether the frames
after an error are still delivered. -/
namespace NoCapKVM.Discovery.SessionLoop

open Thread SecureChannel ChannelDelivery

/-- What a connection thread shares, with the socket of its channel. -/
structure Endpoint where
  world : World
  socket : Socket

/-- The socket as the next `receive` finds it. -/
def Endpoint.ready (e : Endpoint) : Socket :=
  { e.socket with clock := e.world.clock, reading := .idle }

/-- Each `receive` is a run on the socket, whose operations are
answered by `exec`. -/
def sessionSystem (na : Sodium UInt8) (key : Key32 UInt8)
    (exec : (o : ChannelOp) → Socket → ChannelAns o → Socket → Prop) : System Op Ans Action Endpoint where
  exec
    | .channelReceive deadline, e, r, e' =>
        (∃ past, Run (alone exec) (receive na key deadline) e.ready past (.ret r) e'.socket) ∧
          e'.world = { e.world with clock := e'.socket.clock }
    | o, e, r, e' => World.exec o e.world r e'.world ∧ e'.socket = e.socket
  env a e e' := e' = { e with world := e.world.act a }

/-- The message loop of a client or of a server, from any state of its
variables. -/
inductive MessageLoop : ConnProg Unit → Prop where
  | client (c : TcpClient) (x : TcpClient.Session) : MessageLoop (Prog.iterate x (TcpClient.sessionRound c))
  | server (link : Link) : MessageLoop (Prog.iterate link TcpServer.sessionRound)

def result? : ConnLabel → Option RecvResult
  | .did (.channelReceive _) r => if notTimeout r then some r else none
  | _ => none

/-- The results of the receives so far that did not time out, in order. -/
def results (past : List ConnLabel) : List RecvResult :=
  past.reverse.filterMap result?

def message? : RecvResult → Option Message
  | .ok msgType payload => some ⟨msgType, payload⟩
  | _ => none

/-- The messages delivered so far, in order. -/
def delivered (past : List ConnLabel) : List Message :=
  (results past).filterMap message?

/-- The messages of the frames among the pieces. -/
def messages (pieces : List Piece) : List Message :=
  (pieces.map outcome).filterMap message?

section Timely

variable {na : Sodium UInt8} {key : Key32 UInt8} {pieces : List Piece}

/-- The receives so far have taken the first pieces of the stream, and it is
read on from there. -/
def InStep (na : Sodium UInt8) (key : Key32 UInt8) (pieces : List Piece) (past : List ConnLabel)
    (e : Endpoint) : Prop :=
  ∃ taken left, pieces = taken ++ left ∧ results past = taken.map outcome ∧
    Stream na key e.socket.recvNonce left e.socket.incoming

/-- Only a receive that did not time out adds a result. -/
theorem results_cons (l : ConnLabel) (past : List ConnLabel) : results (l :: past) = results past ++ (result? l).toList := by
  simp only [results, List.reverse_cons, List.filterMap_append, List.filterMap_cons, List.filterMap_nil]
  cases result? l <;> rfl

/-- What reads nothing from the channel leaves it in step. -/
theorem inStep_aside {past : List ConnLabel} {e e' : Endpoint} {l : ConnLabel} (h : InStep na key pieces past e)
    (hResult : result? l = none) (hSocket : e'.socket = e.socket) : InStep na key pieces (l :: past) e' := by
  obtain ⟨taken, left, hPieces, hResults, hStream⟩ := h
  refine ⟨taken, left, hPieces, ?_, hSocket ▸ hStream⟩
  rw [results_cons, hResult, hResults]
  exact List.append_nil _

variable {exec : (o : ChannelOp) → Socket → ChannelAns o → Socket → Prop}

/-- The other threads read nothing from it. -/
theorem inStep_stable : Stable (sessionSystem na key exec) (InStep na key pieces) := by
  rintro past e a e' h rfl
  exact inStep_aside h rfl rfl

/-- Nor do the operations of an answer. -/
theorem inStep_answer {o : Op} {past : List ConnLabel} {e e' : Endpoint} {r : Ans o} (hO : IsAnswer o)
    (h : InStep na key pieces past e) (hExec : (sessionSystem na key exec).exec o e r e') :
    InStep na key pieces (.did o r :: past) e' := by
  cases o with
  | channelReceive deadline => exact hO.elim
  | _ => exact inStep_aside h rfl hExec.2

/-- A receive ends the loop, or keeps the loop in step. -/
theorem inStep_receive (hNa : na.AeadContract) {deadline : Time} {past : List ConnLabel} {e e' : Endpoint}
    {r : RecvResult} (h : InStep na key pieces past e)
    (hExec : (sessionSystem na key timely).exec (.channelReceive deadline) e r e') :
    r = .closed ∨ InStep na key pieces (.did (.channelReceive deadline) r :: past) e' := by
  obtain ⟨taken, left, hPieces, hResults, hStream⟩ := h
  obtain ⟨⟨steps, hRun⟩, -⟩ := hExec
  rcases (receive_safe hNa (s := e.ready) hStream []).result hRun with
    ⟨rfl, hIncoming, hNonce⟩ | ⟨rfl, -⟩ | ⟨piece, rest, rfl, rfl, hRest⟩
  · right
    refine ⟨taken, left, hPieces, ?_, ?_⟩
    · rw [results_cons, hResults]
      exact List.append_nil _
    · rw [hIncoming, hNonce]
      exact hStream
  · exact .inl rfl
  · right
    refine ⟨taken ++ [piece], rest, ?_, ?_, hRest⟩
    · rw [hPieces, List.append_assoc]
      rfl
    · have hKept : result? (.did (.channelReceive deadline) (outcome piece)) = some (outcome piece) := by
        cases piece <;> rfl
      rw [results_cons, hResults, hKept, List.map_append]
      rfl

/-- Every operation is performed in step. -/
abbrev inStep (na : Sodium UInt8) (key : Key32 UInt8) (pieces : List Piece) (_ : Op) : Assertion Op Ans Action Endpoint :=
  InStep na key pieces

/-- A round leaves the loop in step, or ends it. -/
abbrev AfterRound (na : Sodium UInt8) (key : Key32 UInt8) (pieces : List Piece) {σ : Type} :
    σ ⊕ Unit → Assertion Op Ans Action Endpoint :=
  Sum.elim (fun _ => InStep na key pieces) fun _ _ _ => True

section Rounds

variable {past : List ConnLabel} {e : Endpoint} {α σ : Type}

/-- So these operations may stand anywhere between two receives. -/
theorem inStep_op {o : Op} {next : Ans o → ConnProg α} {Q : α → Assertion Op Ans Action Endpoint} (hO : IsAnswer o)
    (h : InStep na key pieces past e)
    (hNext : ∀ r past e, InStep na key pieces past e →
      Safe (sessionSystem na key exec) (inStep na key pieces) (next r) Q past e) :
    Safe (sessionSystem na key exec) (inStep na key pieces) (.op o next) Q past e := by
  apply Safe.op (InStep na key pieces) inStep_stable h (fun _ _ h => h)
  intro past e r e' h hExec
  exact hNext r _ e' (inStep_answer hO h hExec)

/-- And so may whole programs of them. -/
theorem answers_safe {p : ConnProg α} (hP : p.Uses IsAnswer) (h : InStep na key pieces past e) :
    Safe (sessionSystem na key exec) (inStep na key pieces) p (fun _ => InStep na key pieces) past e := by
  apply Safe.frame (InStep na key pieces) inStep_stable (fun _ _ _ _ h => h) _ hP h
  intro o past e r e' hO h hExec
  exact inStep_answer hO h hExec

theorem rest_safe {p : ConnProg (σ ⊕ Unit)} (hP : p.Uses IsAnswer) (h : InStep na key pieces past e) :
    Safe (sessionSystem na key exec) (inStep na key pieces) p (AfterRound na key pieces) past e := by
  apply (answers_safe hP h).mono
  intro r past e h
  cases r with
  | inl x => exact h
  | inr _ => trivial

theorem ended_safe : Safe (sessionSystem na key exec) (inStep na key pieces) (.ret (.inr ()))
    (AfterRound na key pieces (σ := σ)) past e := by
  apply Safe.ret
  · exact fun _ _ _ _ _ _ => trivial
  · trivial

/-- The receive of a round, and the program that deals with its result. -/
theorem receive_step (hNa : na.AeadContract) {deadline : Time} {next : RecvResult → ConnProg (σ ⊕ Unit)}
    (h : InStep na key pieces past e) (hClosed : next .closed = .ret (.inr ()))
    (hNext : ∀ r past e, InStep na key pieces past e →
      Safe (sessionSystem na key timely) (inStep na key pieces) (next r) (AfterRound na key pieces) past e) :
    Safe (sessionSystem na key timely) (inStep na key pieces) (.op (.channelReceive deadline) next)
      (AfterRound na key pieces) past e := by
  apply Safe.op (InStep na key pieces) inStep_stable h (fun _ _ h => h)
  intro past e r e' h hExec
  rcases inStep_receive hNa h hExec with rfl | hStep
  · rw [hClosed]
    exact ended_safe
  · exact hNext r _ e' hStep

/-- A round of the client takes at most one piece of the stream, and leaves it
in step. -/
theorem clientRound_safe (hNa : na.AeadContract) (c : TcpClient) (x : TcpClient.Session)
    (h : InStep na key pieces past e) :
    Safe (sessionSystem na key timely) (inStep na key pieces) (TcpClient.sessionRound c x)
      (AfterRound na key pieces) past e := by
  have hRest : ∀ link, (TcpClient.sessionRound.rest c x link).Uses IsAnswer :=
    TcpClient.rest_uses c (fun _ _ => trivial) trivial trivial x
  refine inStep_op trivial h fun running past e h => ?_
  cases running with
  | false => exact ended_safe
  | true =>
      refine inStep_op trivial h fun start past e h => ?_
      simp only [Prog.ret_bind]
      apply receive_step hNa h rfl
      intro r past e h
      cases r with
      | closed => exact ended_safe
      | timeout => exact rest_safe (hRest _) h
      | error =>
          refine inStep_op trivial h fun now past e h => ?_
          exact rest_safe (hRest _) h
      | ok msgType payload =>
          refine inStep_op trivial h fun now past e h => ?_
          exact rest_safe ((TcpClient.dispatch_uses _ msgType payload).bind hRest) h

/-- So does a round of the server. -/
theorem serverRound_safe (hNa : na.AeadContract) (link : Link) (h : InStep na key pieces past e) :
    Safe (sessionSystem na key timely) (inStep na key pieces) (TcpServer.sessionRound link)
      (AfterRound na key pieces) past e := by
  refine inStep_op trivial h fun running past e h => ?_
  cases running with
  | false => exact ended_safe
  | true =>
      refine inStep_op trivial h fun requested past e h => ?_
      cases requested with
      | true => exact ended_safe
      | false =>
          refine inStep_op trivial h fun start past e h => ?_
          simp only [Prog.ret_bind]
          apply receive_step hNa h rfl
          intro r past e h
          cases r with
          | closed => exact ended_safe
          | timeout => exact rest_safe (TcpServer.rest_uses _) h
          | error =>
              refine inStep_op trivial h fun now past e h => ?_
              exact rest_safe (TcpServer.rest_uses _) h
          | ok msgType payload =>
              refine inStep_op trivial h fun now past e h => ?_
              exact rest_safe ((TcpServer.dispatch_uses _ msgType payload).bind TcpServer.rest_uses) h

/-- So in every run of either loop the receives take the pieces of the stream
one by one. -/
theorem loop_safe (hNa : na.AeadContract) {loop : ConnProg Unit} (hLoop : MessageLoop loop)
    (h : InStep na key pieces past e) :
    Safe (sessionSystem na key timely) (inStep na key pieces) loop (fun _ _ _ => True) past e := by
  cases hLoop with
  | client c x =>
      apply Safe.iterate (fun _ => InStep na key pieces) (fun _ => inStep_stable) (fun _ _ _ _ _ _ _ => trivial) h
      intro x past e h
      exact clientRound_safe hNa c x h
  | server link =>
      apply Safe.iterate (fun _ => InStep na key pieces) (fun _ => inStep_stable) (fun _ _ _ _ _ _ _ => trivial) h
      intro link past e h
      exact serverRound_safe hNa link h

end Rounds

end Timely

/-- The steps of a `receive` are chosen one by one. -/
inductive SessionChoice where
  | world (x : Choice)
  | receive (cues : List (Cue Empty SocketChoice))

section Playing

variable (na : Sodium UInt8) (key : Key32 UInt8)

def respondReceive (deadline : Time) (e : Endpoint) (cues : List (Cue Empty SocketChoice)) :
    Option (RecvResult × Endpoint) :=
  match socketPlayer.play cues ⟨[], receive na key deadline, e.ready⟩ with
  | some ⟨_, .ret r, socket⟩ => some (r, ⟨{ e.world with clock := socket.clock }, socket⟩)
  | _ => none

def respondWorld (o : Op) (e : Endpoint) (x : Choice) : Option (Ans o × Endpoint) :=
  (World.respond o e.world x).map fun answered => (answered.1, { e with world := answered.2 })

variable {na key}

/-- A receive that is played along its operations is one that the
channel can make. -/
theorem exec_of_respondReceive {deadline : Time} {e e' : Endpoint} {cues : List (Cue Empty SocketChoice)}
    {r : RecvResult} (h : respondReceive na key deadline e cues = some (r, e')) :
    (sessionSystem na key Socket.exec).exec (.channelReceive deadline) e r e' := by
  unfold respondReceive at h
  split at h
  · rename_i past r' socket hPlay
    cases h
    exact ⟨⟨past, Player.play_run hPlay .start⟩, rfl⟩
  · cases h

/-- An operation besides the receives leaves the socket alone. -/
theorem exec_of_respondWorld {o : Op} {e e' : Endpoint} {x : Choice} {r : Ans o}
    (h : respondWorld o e x = some (r, e')) : World.exec o e.world r e'.world ∧ e'.socket = e.socket := by
  obtain ⟨answered, hRespond, hSame⟩ := Option.map_eq_some_iff.mp h
  cases hSame
  exact ⟨World.exec_of_respond hRespond, rfl⟩

end Playing

def heartbeat : Message := ⟨kMsgHeartbeat, []⟩

def idleLink : Link := { lastHeard := 0, lastHeartbeatSent := 0, lastPingSent := 0 }

/-- A fresh server whose peer sends these bytes in the session. -/
def hearing (bytes : List UInt8) : Endpoint where
  world := World.fresh ⟨fun _ => none, fun _ => none⟩ []
  socket := { incoming := bytes }

def does (count : Nat) : List (Cue Action SessionChoice) :=
  List.replicate count (.answer (.world .usual))

end NoCapKVM.Discovery.SessionLoop
