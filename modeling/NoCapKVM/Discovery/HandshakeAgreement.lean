import NoCapKVM.Discovery.TcpClient
import NoCapKVM.Discovery.TcpServer
import NoCapKVM.Discovery.PlainSodium

/-! An honest client and an honest server go through the same phases. -/
namespace NoCapKVM.Discovery.HandshakeAgreement

open Thread

/-- What one machine brings into a handshake: the readings of its clock, its
trust store, the ephemeral key it will draw, and, on the Master, the decision
of its user and how often that decision is polled before it is made. -/
structure Machine where
  clock : Nat → Time
  readings : Nat := 0
  knownPeers : KnownPeers
  status : ConnectionInfo := {}
  ephemeral : Keypair UInt8
  polls : Nat := 0
  choice : PairingDecision := .rejected

/-- The clock has been read once more. -/
def Machine.tick (m : Machine) : Machine := { m with readings := m.readings + 1 }

@[simp] theorem Machine.tick_ephemeral (m : Machine) : m.tick.ephemeral = m.ephemeral := rfl

/-- The decision has been asked for once more. -/
def Machine.polled (m : Machine) : Machine := { m with polls := m.polls - 1 }

/-- The operations of a handshake on a connection that loses nothing and on
which no deadline passes. -/
def act : (o : Op) → Machine → Inbox UInt8 → Option (Reply Op Ans Machine UInt8 o)
  | .loadRunning, m, _ => some { answer := true, loc := m }
  | .now, m, _ => some { answer := m.clock m.readings, loc := m.tick }
  | .sleepFor _, m, _ => some { answer := (), loc := m }
  | .closeSocket, m, _ => some { answer := (), loc := m, closes := true }
  | .sendAll _ data, m, _ => some { answer := true, loc := m, sent := data }
  | .recvAll _ len _, m, i => (i.read len).map fun r => { answer := r.1, loc := m, taken := r.2 }
  | .generateKeypair, m, _ => some { answer := m.ephemeral, loc := m }
  | .remark _, m, _ => some { answer := (), loc := m }
  | .getPubkey deviceId, m, _ => some { answer := m.knownPeers.getPubkey deviceId, loc := m }
  | .remember deviceId pubkey, m, _ =>
      some { answer := (), loc := { m with knownPeers := m.knownPeers.remember deviceId pubkey } }
  | .assignStatus info, m, _ => some { answer := (), loc := { m with status := info } }
  | .updateStatus u, m, _ => some { answer := (), loc := { m with status := u.apply m.status } }
  | .storeDecision _, m, _ => some { answer := (), loc := m }
  | .loadDecision, m, _ =>
      if m.polls = 0 then some { answer := m.choice, loc := m }
      else some { answer := .pending, loc := m.polled }
  | _, _, _ => none

def handler : Handler Op Ans Machine UInt8 where
  act := act
  taken_le := by
    intro o m i r h
    cases o with
    | recvAll =>
        obtain ⟨r', hRead, rfl⟩ := Option.map_eq_some_iff.mp h
        exact Inbox.read_taken hRead
    | loadDecision =>
        simp only [act] at h
        split at h <;> cases h <;> exact Nat.zero_le _
    | _ => cases h <;> exact Nat.zero_le _
  mono := by
    intro o m i r h sent closes
    cases o with
    | recvAll =>
        obtain ⟨r', hRead, rfl⟩ := Option.map_eq_some_iff.mp h
        simp only [act, Inbox.read_deliver hRead, Option.map_some]
    | _ => exact h

abbrev Handshake :=
  Pair Op Ans Op Ans Machine Machine UInt8 (Except AttemptOutcome (UInt64 × IkResult UInt8))
    (Option (UInt64 × IkResult UInt8))

/-- A client and a server on a fresh connection. -/
def start (na : Sodium UInt8) (c : TcpClient) (m : TcpServer) (ip : String) (slave master : Machine) :
    Handshake where
  left := { prog := c.handshake na, loc := slave }
  right := { prog := m.handshake na ip, loc := master }

abbrev Event := Σ o, Ans o

/-- A transfer that has completed: its phase and its bytes. -/
abbrev Piece := Phase × List UInt8

def sent : Event → Option Piece
  | ⟨.sendAll phase data, true⟩ => some (phase, data)
  | _ => none

def received : Event → Option Piece
  | ⟨.recvAll phase _ _, some data⟩ => some (phase, data.val)
  | _ => none

/-- Whether a key was stored for the peer. -/
def lookedUp : Event → Option Bool
  | ⟨.getPubkey _, stored⟩ => some stored.isSome
  | _ => none

/-- The peer's pairing flag. -/
def flag : Event → Option UInt8
  | ⟨.recvAll .pairingFlag _ _, some data⟩ => data.val.head?
  | _ => none

/-- A fingerprint on display. -/
def shown : Event → Option String
  | ⟨.assignStatus info, _⟩ => if info.state = .pairing then some info.pairingFingerprint else none
  | _ => none

/-- A Noise IK run begun, with the key trusted for it. -/
def ikStarted : Event → Option (Key32 UInt8)
  | ⟨.remark (.ikStarts k), _⟩ => some k
  | _ => none

/-- What a side computes for `need_pairing`, once it knows both flags. -/
def needPairing (trace : List Event) : Option Bool := do
  let stored ← (trace.filterMap lookedUp).head?
  let wants ← (trace.filterMap flag).head?
  return !stored || wants != 0

/-- The events that these functions look at. -/
def notable : Event → Bool
  | ⟨.sendAll .., _⟩ | ⟨.recvAll .., _⟩ | ⟨.getPubkey _, _⟩ | ⟨.assignStatus _, _⟩
  | ⟨.remark _, _⟩ => true
  | _ => false

abbrev ClientProg := ConnProg (Except AttemptOutcome (UInt64 × IkResult UInt8))

abbrev ServerProg := ConnProg (Option (UInt64 × IkResult UInt8))

/-- The two sides get to `p` and `q`, with `i` and `i'` unread and with the
notable events `es` and `es'` on record. -/
def Gets (begin : Handshake) (p : ClientProg) (l : Machine) (i : Inbox UInt8) (es : List Event)
    (q : ServerProg) (l' : Machine) (i' : Inbox UInt8) (es' : List Event) : Prop :=
  ∃ trace trace', begin.Runs handler handler ⟨⟨p, l, i, trace⟩, ⟨q, l', i', trace'⟩⟩ ∧
    trace.filter notable = es ∧ trace'.filter notable = es'

namespace Gets

variable {begin : Handshake} {l l' m : Machine} {i i' : Inbox UInt8} {es es' : List Event}

/-- The client may do its next operation, whose bytes are then on their way to
the server. -/
theorem left {o : Op} {next : Ans o → ClientProg} {q : ServerProg} {r : Reply Op Ans Machine UInt8 o}
    (h : Gets begin (.op o next) l i es q l' i' es') (hAct : act o l i = some r) :
    Gets begin (next r.answer) r.loc (i.drop r.taken) (es ++ [⟨o, r.answer⟩].filter notable)
      q l' (i'.deliver r.sent r.closes) es' := by
  obtain ⟨trace, trace', hRuns, rfl, rfl⟩ := h
  refine ⟨trace ++ [⟨o, r.answer⟩], trace', hRuns.trans (.head (Or.inl ?_) (.refl _)), ?_, rfl⟩
  · have hStep : handler.act o l i = some r := hAct
    simp only [Pair.stepLeft, Party.step, hStep, Option.map_some]
    rfl
  · rw [List.filter_append]

/-- The server may do its next operation, whose bytes are then on their way to
the client. -/
theorem right {o : Op} {p : ClientProg} {next : Ans o → ServerProg} {r : Reply Op Ans Machine UInt8 o}
    (h : Gets begin p l i es (.op o next) l' i' es') (hAct : act o l' i' = some r) :
    Gets begin p l (i.deliver r.sent r.closes) es (next r.answer) r.loc (i'.drop r.taken)
      (es' ++ [⟨o, r.answer⟩].filter notable) := by
  obtain ⟨trace, trace', hRuns, rfl, rfl⟩ := h
  refine ⟨trace, trace' ++ [⟨o, r.answer⟩], hRuns.trans (.head (Or.inr ?_) (.refl _)), rfl, ?_⟩
  · have hStep : handler.act o l' i' = some r := hAct
    simp only [Pair.stepRight, Party.step, hStep, Option.map_some]
    rfl
  · rw [List.filter_append]

/-- A step of the client that neither reads nor sends. -/
theorem leftLocal {o : Op} {next : Ans o → ClientProg} {q : ServerProg} {a : Ans o}
    (h : Gets begin (.op o next) l i es q l' i' es')
    (hAct : act o l i = some { answer := a, loc := m }) :
    Gets begin (next a) m i (es ++ [⟨o, a⟩].filter notable) q l' i' es' := by
  have hStep := h.left hAct
  rw [Inbox.deliver_nil] at hStep
  exact hStep

/-- An operation of the server that moves no bytes changes nothing but its own
machine and its record. -/
theorem rightLocal {o : Op} {p : ClientProg} {next : Ans o → ServerProg} {a : Ans o}
    (h : Gets begin p l i es (.op o next) l' i' es')
    (hAct : act o l' i' = some { answer := a, loc := m }) :
    Gets begin p l i es (next a) m i' (es' ++ [⟨o, a⟩].filter notable) := by
  have hStep := h.right hAct
  rw [Inbox.deliver_nil] at hStep
  exact hStep

/-- Entering a round of a loop is no event. -/
theorem rightLoop {σ β : Type} {p : ClientProg} {x : σ} {body : σ → ConnProg (σ ⊕ β)}
    {next : β → ServerProg} (h : Gets begin p l i es (.loop x body next) l' i' es') :
    Gets begin p l i es (.unroll x body next) l' i' es' := by
  obtain ⟨trace, trace', hRuns, hEs⟩ := h
  refine ⟨trace, trace', hRuns.trans (.head (Or.inr ?_) (.refl _)), hEs⟩
  simp only [Pair.stepRight, Party.step, Option.map_some, Party.receive_empty]

/-- A receive whose bytes have all arrived returns them. -/
theorem act_recv {phase : Phase} {len : Nat} {deadline : Time} {data : List UInt8} {closed : Bool}
    (hLen : data.length = len) : act (.recvAll phase len deadline) l ⟨data, closed⟩ =
      some { answer := some ⟨data, hLen⟩, loc := l, taken := len } := by
  simp only [act, Inbox.read_append (i := ⟨data, closed⟩) (List.append_nil data).symm hLen,
    Option.map_some]

/-- The client reads the message that has arrived. -/
theorem leftRecv {phase : Phase} {len : Nat} {deadline : Time} {data : List UInt8} {closed : Bool}
    {next : Option (Bytes UInt8 len) → ClientProg} {q : ServerProg} (hLen : data.length = len)
    (h : Gets begin (.op (.recvAll phase len deadline) next) l ⟨data, closed⟩ es q l' i' es') :
    Gets begin (next (some ⟨data, hLen⟩)) l ⟨[], closed⟩
      (es ++ [⟨.recvAll phase len deadline, some ⟨data, hLen⟩⟩]) q l' i' es' := by
  have hStep := h.left (act_recv hLen)
  have hDrop : Inbox.drop ⟨data, closed⟩ len = ⟨[], closed⟩ := by
    rw [Inbox.drop, ← hLen, List.drop_length]
  rw [Inbox.deliver_nil, hDrop] at hStep
  exact hStep

/-- So the server reads what the client has sent it in the same phase. -/
theorem rightRecv {phase : Phase} {len : Nat} {deadline : Time} {data : List UInt8} {closed : Bool}
    {p : ClientProg} {next : Option (Bytes UInt8 len) → ServerProg} (hLen : data.length = len)
    (h : Gets begin p l i es (.op (.recvAll phase len deadline) next) l' ⟨data, closed⟩ es') :
    Gets begin p l i es (next (some ⟨data, hLen⟩)) l' ⟨[], closed⟩
      (es' ++ [⟨.recvAll phase len deadline, some ⟨data, hLen⟩⟩]) := by
  have hStep := h.right (act_recv hLen)
  have hDrop : Inbox.drop ⟨data, closed⟩ len = ⟨[], closed⟩ := by
    rw [Inbox.drop, ← hLen, List.drop_length]
  rw [Inbox.deliver_nil, hDrop] at hStep
  exact hStep

/-- Both sides send their message of a phase and read the other one's. -/
theorem exchange {phase : Phase} {data data' : List UInt8} {len len' : Nat} {deadline deadline' : Time}
    {next : Option (Bytes UInt8 len) → ClientProg} {next' : Option (Bytes UInt8 len') → ServerProg}
    (hData : data.length = len') (hData' : data'.length = len)
    (h : Gets begin ((exchange phase data len deadline).bind next) l {} es
      ((Discovery.exchange phase data' len' deadline').bind next') l' {} es') :
    Gets begin (next (some ⟨data', hData'⟩)) l {}
      (es ++ [⟨.sendAll phase data, true⟩, ⟨.recvAll phase len deadline, some ⟨data', hData'⟩⟩])
      (next' (some ⟨data, hData⟩)) l' {}
      (es' ++ [⟨.sendAll phase data', true⟩, ⟨.recvAll phase len' deadline', some ⟨data, hData⟩⟩]) := by
  have hBoth := (h.left (o := .sendAll phase data) rfl).right (o := .sendAll phase data') rfl
  have hRead := leftRecv hData' hBoth
  have hReadBoth := rightRecv hData hRead
  rw [List.append_assoc, List.append_assoc] at hReadBoth
  exact hReadBoth

/-- The client gives up, which closes the connection. -/
theorem abandons {outcome : AttemptOutcome} {q : ServerProg}
    (h : Gets begin (TcpClient.abandon outcome) l i es q l' i' es') :
    ∃ m, Gets begin (.ret (.error outcome)) m i es q l' (i'.deliver [] true) es' := by
  have hClosed := h.left (o := .closeSocket) rfl
  have hFailed := hClosed.leftLocal (o := .updateStatus _) rfl
  have hFilter : (es ++ List.filter notable [⟨.closeSocket, ()⟩]) ++
      List.filter notable [⟨.updateStatus (.state .failed), ()⟩] = es := by simp [notable]
  rw [hFilter] at hFailed
  exact ⟨_, hFailed⟩

/-- The server resets its status after it has closed the connection. -/
theorem resets {p : ClientProg} (h : Gets begin p l i es TcpServer.reset l' i' es') :
    ∃ m, Gets begin p l (i.deliver [] true) es (.ret none) m i' (es' ++ [⟨.assignStatus {}, ()⟩]) := by
  have hClosed := h.right (o := .closeSocket) rfl
  have hReset := hClosed.rightLocal (o := .assignStatus {}) rfl
  have hFilter : (es' ++ List.filter notable [⟨.closeSocket, ()⟩]) ++
      List.filter notable [⟨.assignStatus {}, ()⟩] = es' ++ [⟨.assignStatus {}, ()⟩] := by
    simp [notable]
  rw [hFilter] at hReset
  exact ⟨_, hReset⟩

/-- A receive from a connection that has been closed returns nothing. -/
theorem act_recv_closed {phase : Phase} {len : Nat} {deadline : Time} (hLen : 0 < len) :
    act (.recvAll phase len deadline) l ⟨[], true⟩ = some { answer := none, loc := l, taken := 0 } := by
  have hNone : ¬ len ≤ 0 := by omega
  simp [act, Inbox.read, hNone]

end Gets

/-- What one side sends in a phase, the other side reads in that phase. -/
structure Matched (es es' : List Event) : Prop where
  toServer : es'.filterMap received = es.filterMap sent
  toClient : es.filterMap received = es'.filterMap sent
  nonempty : ∀ piece ∈ es.filterMap sent ++ es'.filterMap sent, 0 < piece.2.length

/-- Two parts of the records that match phase by phase match together. -/
theorem Matched.append {es es' xs xs' : List Event} (h : Matched es es') (hXs : Matched xs xs') :
    Matched (es ++ xs) (es' ++ xs') := by
  refine ⟨?_, ?_, ?_⟩
  · rw [List.filterMap_append, List.filterMap_append, h.toServer, hXs.toServer]
  · rw [List.filterMap_append, List.filterMap_append, h.toClient, hXs.toClient]
  · intro piece hPiece
    have hEither : piece ∈ (es.filterMap sent ++ es'.filterMap sent) ∨
        piece ∈ (xs.filterMap sent ++ xs'.filterMap sent) := by
      simp only [List.filterMap_append, List.mem_append] at hPiece ⊢
      tauto
    rcases hEither with hOld | hNew
    · exact h.nonempty piece hOld
    · exact hXs.nonempty piece hNew

/-- The notable events of a Noise IK run. -/
structure IkRecords (rs trusted : Key32 UInt8) (xs xs' : List Event) : Prop
    extends Matched xs xs' where
  client : xs.filterMap ikStarted = [rs]
  server : xs'.filterMap ikStarted = [trusted]
  noPrompt : xs.filterMap shown = [] ∧ xs'.filterMap shown = []

/-- Every order of the steps leads to one configuration, with
these records. -/
def Ends (begin : Handshake) (es es' : List Event) : Prop :=
  ∃ f, begin.Runs handler handler f ∧ f.Done handler handler ∧
    f.left.trace.filter notable = es ∧ f.right.trace.filter notable = es'

/-- Once both sides have come to an end, every other order of the steps leads
there too. -/
theorem Gets.ends {begin : Handshake} {a : Except AttemptOutcome (UInt64 × IkResult UInt8)}
    {b : Option (UInt64 × IkResult UInt8)} {l l' : Machine} {i i' : Inbox UInt8} {es es' : List Event}
    (h : Gets begin (.ret a) l i es (.ret b) l' i' es') : Ends begin es es' := by
  obtain ⟨trace, trace', hRuns, hEs⟩ := h
  exact ⟨_, hRuns, ⟨rfl, rfl⟩, hEs⟩

section Ik

variable {na : Sodium UInt8} {c : TcpClient} {m : TcpServer} {begin : Handshake} {l l' : Machine}
  {es es' : List Event} {d d' : UInt64} {rs trusted : Key32 UInt8}

/-- The client cannot even make its first message. -/
theorem ik_noMsg1 (h : Gets begin (c.initiateIk na d rs) l {} es (m.respondIk na d' trusted) l' {} es')
    (hMsg1 : ikWriteMsg1 na c.ownStatic rs l.ephemeral = none) :
    ∃ xs xs', Ends begin (es ++ xs) (es' ++ xs') ∧ IkRecords rs trusted xs xs' := by
  simp only [TcpClient.initiateIk, TcpServer.respondIk, Prog.bind_def, Prog.perform_bind,
    runIkInitiator_eq, runIkResponder_eq, Prog.interp, ikOp, Prog.op_bind] at h
  have hNow := h.leftLocal rfl
  have hStarts := hNow.leftLocal rfl
  have hDrawn := hStarts.leftLocal rfl
  simp only [Machine.tick_ephemeral, Prog.ret_bind, hMsg1, Prog.interp] at hDrawn
  obtain ⟨k, hClosed⟩ := hDrawn.abandons
  have hNow' := hClosed.rightLocal rfl
  have hStarts' := hNow'.rightLocal rfl
  have hFails := hStarts'.right (Gets.act_recv_closed (by decide))
  simp only [Prog.ret_bind, Option.bind_none, Prog.interp] at hFails
  obtain ⟨k', hReset⟩ := hFails.resets
  have hEnds := hReset.ends
  simp only [notable, List.filter, List.append_nil, List.append_assoc, List.cons_append,
    List.nil_append] at hEnds
  refine ⟨_, _, hEnds, ⟨rfl, rfl, ?_⟩, rfl, rfl, ⟨rfl, rfl⟩⟩
  intro piece hPiece
  cases hPiece

/-- The server has closed the connection instead of sending its message. -/
theorem ik_refused {next : Option (Bytes UInt8 kMsg2Size) → ClientProg} {deadline : Time}
    {xs xs' : List Event} {i' : Inbox UInt8}
    (hNext : next none = TcpClient.abandon .retryBackoff)
    (h : Gets begin (.op (.recvAll .ikMsg2 kMsg2Size deadline) next) l {} xs
      TcpServer.reset l' i' xs') :
    Ends begin (xs ++ [⟨.recvAll .ikMsg2 kMsg2Size deadline, none⟩]) (xs' ++ [⟨.assignStatus {}, ()⟩]) := by
  obtain ⟨k, hReset⟩ := h.resets
  have hClosed := hReset.left (Gets.act_recv_closed (by decide))
  simp only [hNext] at hClosed
  obtain ⟨k', hDone⟩ := hClosed.abandons
  exact hDone.ends

/-- Both messages have been read. Each side ends on its own. -/
theorem ik_concludes {p : ClientProg} {ik : IkResult UInt8} {xs xs' : List Event} {i' : Inbox UInt8}
    (hLeft : p = TcpClient.abandon .retryBackoff ∨ ∃ r, p = .ret (.ok r))
    (h : Gets begin p l {} xs
      (.op (.remark (.ikSucceeded ik.peerStatic)) fun _ =>
        if trusted ≠ ik.peerStatic then TcpServer.reset else pure (some (d', ik))) l' i' xs') :
    ∃ tail, Ends begin xs (xs' ++ ⟨.remark (.ikSucceeded ik.peerStatic), ()⟩ :: tail) ∧
      (tail = [] ∨ tail = [⟨.assignStatus {}, ()⟩]) := by
  have hVerified := h.rightLocal rfl
  have hRight : ∃ tail, (tail = [] ∨ tail = [⟨.assignStatus {}, ()⟩]) ∧ ∃ a k i j,
      Gets begin p l i xs (.ret a) k j
        (xs' ++ ⟨.remark (.ikSucceeded ik.peerStatic), ()⟩ :: tail) := by
    by_cases hTrusted : trusted ≠ ik.peerStatic
    · rw [if_pos hTrusted] at hVerified
      obtain ⟨k, hReset⟩ := hVerified.resets
      rw [List.append_assoc] at hReset
      exact ⟨_, Or.inr rfl, none, k, _, i', hReset⟩
    · rw [if_neg hTrusted] at hVerified
      exact ⟨_, Or.inl rfl, _, l', _, i', hVerified⟩
  obtain ⟨tail, hTail, a, k, i, j, hDone⟩ := hRight
  refine ⟨tail, ?_, hTail⟩
  rcases hLeft with rfl | ⟨r, rfl⟩
  · obtain ⟨k, hClosed⟩ := hDone.abandons
    exact hClosed.ends
  · exact hDone.ends

/-- The first message has been sent. -/
theorem ik_msg1 (hNa : na.AeadContract)
    (h : Gets begin (c.initiateIk na d rs) l {} es (m.respondIk na d' trusted) l' {} es')
    {msg1 : List UInt8} {state : SymmetricState UInt8}
    (hMsg1 : ikWriteMsg1 na c.ownStatic rs l.ephemeral = some (msg1, state)) :
    ∃ xs xs', Ends begin (es ++ xs) (es' ++ xs') ∧ IkRecords rs trusted xs xs' := by
  have hLen := ikWriteMsg1_length hNa hMsg1
  have hPos : 0 < msg1.length := by rw [hLen]; decide
  simp only [TcpClient.initiateIk, TcpServer.respondIk, Prog.bind_def, Prog.perform_bind,
    runIkInitiator_eq, runIkResponder_eq, Prog.interp, ikOp, Prog.op_bind] at h
  have hNow := h.leftLocal rfl
  have hStarts := hNow.leftLocal rfl
  have hDrawn := hStarts.leftLocal rfl
  simp only [Machine.tick_ephemeral, hMsg1, Prog.interp, ikOp, Prog.perform_bind, Prog.op_bind]
    at hDrawn
  have hSent := hDrawn.left rfl
  simp only [if_true, Prog.interp, ikOp, Prog.perform_bind, Prog.op_bind] at hSent
  have hNow' := hSent.rightLocal rfl
  have hStarts' := hNow'.rightLocal rfl
  have hRead := Gets.rightRecv hLen hStarts'
  simp only [Prog.ret_bind, Option.bind_some] at hRead
  cases hHello : ikReadMsg1 na m.ownStatic ⟨msg1, hLen⟩ with
  | none =>
      simp only [hHello, Prog.interp, Prog.ret_bind] at hRead
      have hEnds := ik_refused rfl hRead
      simp only [notable, List.filter, List.append_nil, List.append_assoc, List.cons_append,
        List.nil_append] at hEnds
      refine ⟨_, _, hEnds, ⟨rfl, rfl, ?_⟩, rfl, rfl, ⟨rfl, rfl⟩⟩
      intro piece hPiece
      obtain rfl := List.mem_singleton.mp hPiece
      exact hPos
  | some hello =>
      simp only [hHello, Prog.interp, ikOp, Prog.perform_bind, Prog.op_bind] at hRead
      have hDrawn' := hRead.rightLocal rfl
      cases hMsg2 : ikWriteMsg2 na hello l'.tick.ephemeral with
      | none =>
          simp only [hMsg2, Prog.interp, Prog.ret_bind] at hDrawn'
          have hEnds := ik_refused rfl hDrawn'
          simp only [notable, List.filter, List.append_nil, List.append_assoc, List.cons_append,
            List.nil_append] at hEnds
          refine ⟨_, _, hEnds, ⟨rfl, rfl, ?_⟩, rfl, rfl, ⟨rfl, rfl⟩⟩
          intro piece hPiece
          obtain rfl := List.mem_singleton.mp hPiece
          exact hPos
      | some answer =>
          obtain ⟨msg2, result⟩ := answer
          have hLen2 := ikWriteMsg2_length hNa hMsg2
          have hPos2 : 0 < msg2.length := by rw [hLen2]; decide
          simp only [hMsg2, Prog.interp, ikOp, Prog.perform_bind, Prog.op_bind] at hDrawn'
          have hAnswered := hDrawn'.right rfl
          simp only [if_true, Prog.ret_bind] at hAnswered
          have hAll := Gets.leftRecv hLen2 hAnswered
          obtain ⟨tail, hEnds, hTail⟩ := ik_concludes (by
            cases (some ⟨msg2, hLen2⟩ : Option (Bytes UInt8 kMsg2Size)).bind
              (ikReadMsg2 na c.ownStatic rs l.ephemeral state) with
            | none => exact Or.inl rfl
            | some ik => exact Or.inr ⟨_, rfl⟩) hAll
          simp only [notable, List.filter, List.append_nil, List.append_assoc, List.cons_append,
            List.nil_append] at hEnds
          refine ⟨_, _, hEnds, ?_⟩
          rcases hTail with rfl | rfl
          all_goals
            refine ⟨⟨rfl, rfl, ?_⟩, rfl, rfl, ⟨rfl, rfl⟩⟩
            intro piece hPiece
            rcases List.mem_pair.mp hPiece with rfl | rfl
            · exact hPos
            · exact hPos2

/-- A Noise IK run, whatever keys the two sides start it with. -/
theorem ik_runs (hNa : na.AeadContract)
    (h : Gets begin (c.initiateIk na d rs) l {} es (m.respondIk na d' trusted) l' {} es') :
    ∃ xs xs', Ends begin (es ++ xs) (es' ++ xs') ∧ IkRecords rs trusted xs xs' := by
  cases hMsg1 : ikWriteMsg1 na c.ownStatic rs l.ephemeral with
  | none => exact ik_noMsg1 h hMsg1
  | some answer => exact ik_msg1 hNa h hMsg1

end Ik

section Pairing

variable {na : Sodium UInt8} {c : TcpClient} {m : TcpServer} {ip : String} {begin : Handshake}
  {l l' : Machine} {es es' : List Event}

/-- The client's side of a handshake that pairs. -/
def pairFirst (na : Sodium UInt8) (c : TcpClient) (peerDeviceId : UInt64) : ClientProg := do
  match ← c.pair na peerDeviceId with
  | .error outcome => return .error outcome
  | .ok rs => c.initiateIk na peerDeviceId rs

def approveFirst (na : Sodium UInt8) (m : TcpServer) (ip : String) (peerDeviceId : UInt64) :
    ServerProg := do
  match ← m.pair na ip peerDeviceId with
  | none => return none
  | some trustedPubkey => m.respondIk na peerDeviceId trustedPubkey

/-- The notable events up to the pairing flags. -/
structure OpeningRecords (stored stored' : Bool) (es es' : List Event) : Prop
    extends Matched es es' where
  client : needPairing es = some (!stored || !stored')
  server : needPairing es' = some (!stored' || !stored)
  noPrompt : es.filterMap shown = [] ∧ es'.filterMap shown = []
  noIk : es.filterMap ikStarted = [] ∧ es'.filterMap ikStarted = []

/-- The notable events up to the pairing flags are these, whatever the two
machines have stored. -/
theorem openingRecords (id id' : Bytes UInt8 8) (rs trusted : Option (Key32 UInt8)) (d d' : UInt64)
    (t₁ t₂ t₁' t₂' : Time) :
    OpeningRecords rs.isSome trusted.isSome
      [⟨.sendAll .deviceId id.val, true⟩, ⟨.recvAll .deviceId 8 t₁, some id'⟩, ⟨.getPubkey d, rs⟩,
        ⟨.sendAll .pairingFlag [if rs.isSome then 0 else 1], true⟩,
        ⟨.recvAll .pairingFlag 1 t₂, some ⟨[if trusted.isSome then 0 else 1], rfl⟩⟩]
      [⟨.sendAll .deviceId id'.val, true⟩, ⟨.recvAll .deviceId 8 t₁', some id⟩, ⟨.getPubkey d', trusted⟩,
        ⟨.sendAll .pairingFlag [if trusted.isSome then 0 else 1], true⟩,
        ⟨.recvAll .pairingFlag 1 t₂', some ⟨[if rs.isSome then 0 else 1], rfl⟩⟩] where
  toServer := rfl
  toClient := rfl
  nonempty := by
    intro piece hPiece
    have hPieces : piece ∈ [(.deviceId, id.val), (.pairingFlag, [if rs.isSome then 0 else 1]),
        (.deviceId, id'.val), (.pairingFlag, [if trusted.isSome then 0 else 1])] := hPiece
    simp only [List.mem_cons, List.not_mem_nil, or_false] at hPieces
    rcases hPieces with rfl | rfl | rfl | rfl
    · exact Nat.lt_of_lt_of_eq (by decide) id.property.symm
    · exact Nat.one_pos
    · exact Nat.lt_of_lt_of_eq (by decide) id'.property.symm
    · exact Nat.one_pos
  client := by cases rs <;> cases trusted <;> rfl
  server := by cases rs <;> cases trusted <;> rfl
  noPrompt := ⟨rfl, rfl⟩
  noIk := ⟨rfl, rfl⟩

/-- Both sides learn the other one's id and whether it wants to pair. -/
theorem opens (h : Gets begin (c.handshake na) l {} [] (m.handshake na ip) l' {} []) :
    ∃ es es', OpeningRecords (l.knownPeers.getPubkey m.ownDeviceId).isSome
        (l'.knownPeers.getPubkey c.ownDeviceId).isSome es es' ∧
      Gets begin
        (match l.knownPeers.getPubkey m.ownDeviceId, l'.knownPeers.getPubkey c.ownDeviceId with
          | some rs, some _ => c.initiateIk na m.ownDeviceId rs
          | _, _ => pairFirst na c m.ownDeviceId) l.tick.tick {} es
        (match l'.knownPeers.getPubkey c.ownDeviceId, l.knownPeers.getPubkey m.ownDeviceId with
          | some trustedPubkey, some _ => m.respondIk na c.ownDeviceId trustedPubkey
          | _, _ => approveFirst na m ip c.ownDeviceId) l'.tick.tick {} es' := by
  simp only [TcpClient.handshake, TcpServer.handshake, Prog.bind_def, Prog.perform_bind] at h
  have hNow := (h.leftLocal rfl).rightLocal rfl
  have hIds := hNow.exchange (encodeDeviceId c.ownDeviceId).property (encodeDeviceId m.ownDeviceId).property
  have hDecoded : ∀ d h, decodeDeviceId ⟨(encodeDeviceId d).val, h⟩ = d :=
    fun d _ => decodeDeviceId_encodeDeviceId d
  dsimp only at hIds
  rw [hDecoded, hDecoded] at hIds
  generalize hRs : l.knownPeers.getPubkey m.ownDeviceId = rs
  generalize hTrusted : l'.knownPeers.getPubkey c.ownDeviceId = trusted
  have hLookup : act (.getPubkey m.ownDeviceId) l.tick {} = some { answer := rs, loc := l.tick } := by
    rw [← hRs]
    rfl
  have hLookup' : act (.getPubkey c.ownDeviceId) l'.tick {} =
      some { answer := trusted, loc := l'.tick } := by
    rw [← hTrusted]
    rfl
  have hStored := (hIds.leftLocal hLookup).rightLocal hLookup'
  have hNow' := (hStored.leftLocal rfl).rightLocal rfl
  have hFlags := hNow'.exchange (by rfl) (by rfl)
  simp only [notable, List.filter, List.append_nil, List.cons_append, List.nil_append] at hFlags
  cases rs <;> cases trusted <;> exact ⟨_, _, openingRecords .., hFlags⟩

/-- One look at the decision, before the deadline. -/
theorem polls_once {p : ClientProg} {i i' : Inbox UInt8} {next : PairingDecision → ServerProg}
    {deadline : Time} (hEarly : l'.clock l'.readings < deadline)
    (h : Gets begin p l i es ((TcpServer.awaitDecision deadline).bind next) l' i' es') :
    Gets begin p l i es
      (.op .loadDecision fun decision =>
        if decision ≠ .pending then next decision
        else .op (.sleepFor (milliseconds 100)) fun _ => (TcpServer.awaitDecision deadline).bind next)
      l'.tick i' es' := by
  have hRunning := h.rightLoop.rightLocal (a := true) rfl
  have hNow := hRunning.rightLocal (a := l'.clock l'.readings) rfl
  simp only [Prog.bind_def, Prog.ret_bind, if_neg (Nat.not_le.mpr hEarly), Prog.perform_bind,
    Prog.op_bind, notable, List.filter, List.append_nil] at hNow
  have hSplit : ∀ decision : PairingDecision,
      Prog.bind (if decision ≠ .pending then pure (Sum.inr decision)
        else .op (.sleepFor (milliseconds 100)) fun _ => pure (Sum.inl ()))
        (Sum.elim (fun _ => (TcpServer.awaitDecision deadline).bind next) next) =
      if decision ≠ .pending then next decision
        else .op (.sleepFor (milliseconds 100)) fun _ => (TcpServer.awaitDecision deadline).bind next := by
    intro decision
    split <;> rfl
  rw [← funext hSplit]
  exact hNow

/-- The user decides before the deadline, after any number of polls. -/
theorem decides {p : ClientProg} {i i' : Inbox UInt8} {next : PairingDecision → ServerProg}
    {deadline : Time} {n : Nat} {choice : PairingDecision} (hPolls : l'.polls = n)
    (hMade : l'.choice = choice) (hChoice : choice ≠ .pending)
    (hInTime : ∀ k ≤ n, l'.clock (l'.readings + k) < deadline)
    (h : Gets begin p l i es ((TcpServer.awaitDecision deadline).bind next) l' i' es') :
    ∃ m, Gets begin p l i es (next choice) m i' es' := by
  induction n generalizing l' with
  | zero =>
      have hPoll := polls_once (hInTime 0 (Nat.le_refl 0)) h
      have hAct : act .loadDecision l'.tick i' = some { answer := choice, loc := l'.tick } := by
        rw [← hMade]
        exact if_pos hPolls
      have hDecided := hPoll.rightLocal hAct
      rw [if_pos hChoice] at hDecided
      simp only [notable, List.filter, List.append_nil] at hDecided
      exact ⟨_, hDecided⟩
  | succ n ih =>
      have hPoll := polls_once (hInTime 0 (Nat.zero_le _)) h
      have hAct : act .loadDecision l'.tick i' =
          some { answer := .pending, loc := l'.tick.polled } :=
        if_neg (by simp [Machine.tick, hPolls])
      have hPending := hPoll.rightLocal hAct
      have hSlept := Gets.rightLocal hPending rfl
      simp only [notable, List.filter, List.append_nil] at hSlept
      refine @ih l'.tick.polled ?_ hMade ?_ hSlept
      · simp only [Machine.polled, Machine.tick, hPolls, Nat.add_sub_cancel]
      · intro k hk
        have hLater := hInTime (k + 1) (by omega)
        rwa [Nat.add_comm k 1, ← Nat.add_assoc] at hLater

/-- The notable events of the pairing branch, Noise IK included. -/
structure PairingRecords (na : Sodium UInt8) (c : TcpClient) (m : TcpServer) (choice : PairingDecision)
    (xs xs' : List Event) : Prop extends Matched xs xs' where
  prompt : xs.filterMap shown = [computeFingerprint na c.ownStatic.publicKey m.ownStatic.publicKey]
  prompt' : xs'.filterMap shown = [computeFingerprint na c.ownStatic.publicKey m.ownStatic.publicKey]
  approved : choice = .approved →
    xs.filterMap ikStarted = [m.ownStatic.publicKey] ∧ xs'.filterMap ikStarted = [c.ownStatic.publicKey]
  rejected : choice ≠ .approved → xs.filterMap ikStarted = [] ∧ xs'.filterMap ikStarted = []

/-- What both sides have on record once the decision has arrived. -/
theorem pairingPieces (key key' : Key32 UInt8) (info info' : ConnectionInfo) (decision : Bytes UInt8 1)
    (t t' t₂ : Time) :
    Matched
      [⟨.sendAll .rawPubkey key.val, true⟩, ⟨.recvAll .rawPubkey 32 t, some key'⟩, ⟨.assignStatus info, ()⟩,
        ⟨.recvAll .decision 1 t₂, some decision⟩]
      [⟨.sendAll .rawPubkey key'.val, true⟩, ⟨.recvAll .rawPubkey 32 t', some key⟩,
        ⟨.assignStatus info', ()⟩, ⟨.sendAll .decision decision.val, true⟩] where
  toServer := rfl
  toClient := rfl
  nonempty := by
    intro piece hPiece
    have hPieces : piece ∈ [(.rawPubkey, key.val), (.rawPubkey, key'.val), (.decision, decision.val)] :=
      hPiece
    simp only [List.mem_cons, List.not_mem_nil, or_false] at hPieces
    rcases hPieces with rfl | rfl | rfl
    · exact Nat.lt_of_lt_of_eq (by decide) key.property.symm
    · exact Nat.lt_of_lt_of_eq (by decide) key'.property.symm
    · exact Nat.lt_of_lt_of_eq Nat.one_pos decision.property.symm

/-- The reset of the status moves no bytes. -/
theorem matched_reset : Matched [] [(⟨.assignStatus {}, ()⟩ : Event)] where
  toServer := rfl
  toClient := rfl
  nonempty _ hPiece := absurd hPiece List.not_mem_nil

/-- The pairing branch, whatever the Master's user decides. -/
theorem pair_runs (hNa : na.AeadContract) {d d' : UInt64} (hChoice : l'.choice ≠ .pending)
    (hInTime : ∀ k ≤ l'.polls,
      l'.clock (l'.readings + 2 + k) < l'.clock (l'.readings + 1) + kPairingApprovalTimeout)
    (h : Gets begin (pairFirst na c d) l {} es (approveFirst na m ip d') l' {} es') :
    ∃ xs xs', Ends begin (es ++ xs) (es' ++ xs') ∧ PairingRecords na c m l'.choice xs xs' := by
  simp only [pairFirst, approveFirst, TcpClient.pair, TcpServer.pair, TcpServer.prompt, Prog.bind_def,
    Prog.perform_bind, Prog.bind_assoc, Prog.op_bind] at h
  have hNow := (h.leftLocal rfl).rightLocal rfl
  have hKeys := hNow.exchange c.ownStatic.publicKey.property m.ownStatic.publicKey.property
  simp only [Prog.op_bind] at hKeys
  have hShown := (hKeys.leftLocal rfl).leftLocal rfl
  have hPrompt := ((hShown.rightLocal rfl).rightLocal rfl).rightLocal rfl
  simp only [Prog.bind_assoc] at hPrompt
  generalize hMade : l'.choice = choice at hChoice ⊢
  obtain ⟨k', hDecided⟩ := decides (by rfl) (by exact hMade) hChoice (by exact hInTime) hPrompt
  cases choice with
  | pending => exact (hChoice rfl).elim
  | rejected =>
      simp only [reduceCtorEq, Prog.op_bind, ne_eq, not_false_eq_true, if_true] at hDecided
      have hSent := hDecided.right rfl
      have hRead := Gets.leftRecv (by rfl) hSent
      obtain ⟨j, hClosed⟩ := Gets.abandons hRead
      obtain ⟨j', hReset⟩ := Gets.resets hClosed
      have hEnds := hReset.ends
      simp only [notable, List.filter, List.append_nil, List.append_assoc, List.cons_append,
        List.nil_append] at hEnds
      exact ⟨_, _, hEnds, (pairingPieces ..).append matched_reset, rfl, rfl,
        fun hApproved => absurd hApproved (by decide), fun _ => ⟨rfl, rfl⟩⟩
  | approved =>
      simp only [Prog.op_bind, ne_eq, not_true_eq_false, if_false] at hDecided
      have hSent := hDecided.right rfl
      have hRead := Gets.leftRecv (by rfl) hSent
      have hStored := (hRead.leftLocal rfl).rightLocal rfl
      obtain ⟨xs, xs', hEnds, hIk⟩ := ik_runs hNa hStored
      simp only [notable, List.filter, List.append_nil, List.append_assoc, List.cons_append,
        List.nil_append] at hEnds
      exact ⟨_, _, hEnds, (pairingPieces ..).append hIk.toMatched, congrArg (_ :: ·) hIk.noPrompt.1,
        congrArg (_ :: ·) hIk.noPrompt.2, fun _ => ⟨hIk.client, hIk.server⟩, fun h => (h rfl).elim⟩

end Pairing

/-- The Master's user decides, and before the approval deadline. The clock has
been read three times before the reading that this deadline counts from. -/
structure Machine.DecidesInTime (m : Machine) : Prop where
  decides : m.choice ≠ .pending
  inTime : ∀ k ≤ m.polls,
    m.clock (m.readings + 4 + k) < m.clock (m.readings + 3) + kPairingApprovalTimeout

/-- What the records of both sides have in common once the
handshake has ended. -/
structure Concluded (na : Sodium UInt8) (c : TcpClient) (m : TcpServer) (choice : PairingDecision)
    (es es' : List Event) : Prop extends Matched es es' where
  agreed : ∃ v, needPairing es = some v ∧ needPairing es' = some v
  unprompted : needPairing es = some false → es.filterMap shown = [] ∧ es'.filterMap shown = []
  prompted : needPairing es = some true →
    es.filterMap shown = [computeFingerprint na c.ownStatic.publicKey m.ownStatic.publicKey] ∧
    es'.filterMap shown = [computeFingerprint na c.ownStatic.publicKey m.ownStatic.publicKey]
  approved : needPairing es = some true → choice = .approved →
    es.filterMap ikStarted = [m.ownStatic.publicKey] ∧ es'.filterMap ikStarted = [c.ownStatic.publicKey]
  rejected : needPairing es = some true → choice ≠ .approved →
    es.filterMap ikStarted = [] ∧ es'.filterMap ikStarted = []

/-- Nothing that the two sides have on record so far is out of step. -/
structure InStep (c : TcpClient) (m : TcpServer) (choice : PairingDecision) (es es' : List Event) :
    Prop where
  toServer : es'.filterMap received <+: es.filterMap sent
  toClient : es.filterMap received <+: es'.filterMap sent
  agreed : ∀ v v', needPairing es = some v → needPairing es' = some v' → v = v'
  fingerprint : ∀ fp ∈ es.filterMap shown, ∀ fp' ∈ es'.filterMap shown, fp = fp'
  approved : choice = .approved →
    (needPairing es = some true → ∀ k ∈ es.filterMap ikStarted, k = m.ownStatic.publicKey) ∧
    (needPairing es' = some true → ∀ k ∈ es'.filterMap ikStarted, k = c.ownStatic.publicKey)
  rejected : choice ≠ .approved →
    (needPairing es = some true → es.filterMap ikStarted = []) ∧
    (needPairing es' = some true → es'.filterMap ikStarted = [])

/-- A function that looks at notable events only finds the same ones among
them as among all. -/
theorem filterMap_notable {α : Type} {f : Event → Option α} (hf : ∀ e, notable e = false → f e = none)
    (es : List Event) : (es.filter notable).filterMap f = es.filterMap f := by
  rw [List.filterMap_filter]
  congr 1
  funext e
  cases hE : notable e with
  | false => simp [hf e hE]
  | true => rfl

section Notable

variable (es : List Event)

@[simp] theorem sent_notable : (es.filter notable).filterMap sent = es.filterMap sent :=
  filterMap_notable (fun ⟨o, _⟩ h => by cases o <;> first | rfl | cases h) es

@[simp] theorem received_notable : (es.filter notable).filterMap received = es.filterMap received :=
  filterMap_notable (fun ⟨o, _⟩ h => by cases o <;> first | rfl | cases h) es

@[simp] theorem shown_notable : (es.filter notable).filterMap shown = es.filterMap shown :=
  filterMap_notable (fun ⟨o, _⟩ h => by cases o <;> first | rfl | cases h) es

@[simp] theorem ikStarted_notable : (es.filter notable).filterMap ikStarted = es.filterMap ikStarted :=
  filterMap_notable (fun ⟨o, _⟩ h => by cases o <;> first | rfl | cases h) es

@[simp] theorem needPairing_notable : needPairing (es.filter notable) = needPairing es := by
  unfold needPairing
  rw [filterMap_notable (fun ⟨o, _⟩ h => by cases o <;> first | rfl | cases h),
    filterMap_notable (fun ⟨o, _⟩ h => by cases o <;> first | rfl | cases h)]

end Notable

/-- Whether a pairing is needed is settled by the first events
that show it. -/
theorem needPairing_grows {es fs : List Event} {v : Bool} (hPrefix : es <+: fs)
    (h : needPairing es = some v) : needPairing fs = some v := by
  obtain ⟨rest, rfl⟩ := hPrefix
  simp only [needPairing, Option.bind_eq_bind, Option.bind_eq_some_iff] at h
  obtain ⟨stored, hStored, wants, hWants, hV⟩ := h
  simp only [needPairing, List.filterMap_append, List.head?_append, hStored, hWants,
    Option.bind_eq_bind]
  exact hV

section Whole

variable {na : Sodium UInt8} {c : TcpClient} {m : TcpServer} {ip : String} {slave master : Machine}
  {choice : PairingDecision}

/-- What both records have in common can be read off their notable events. -/
theorem Concluded.of_notable {es es' : List Event}
    (h : Concluded na c m choice (es.filter notable) (es'.filter notable)) :
    Concluded na c m choice es es' := by
  obtain ⟨⟨hServer, hClient, hPieces⟩, hAgreed, hNone, hShown, hApproved, hRejected⟩ := h
  simp only [sent_notable, received_notable, shown_notable, ikStarted_notable, needPairing_notable] at *
  exact ⟨⟨hServer, hClient, hPieces⟩, hAgreed, hNone, hShown, hApproved, hRejected⟩

/-- Every fingerprint on display is that of the two keys. -/
theorem Concluded.displayed {es es' : List Event} (h : Concluded na c m choice es es') :
    ∀ fp ∈ es.filterMap shown ++ es'.filterMap shown,
      fp = computeFingerprint na c.ownStatic.publicKey m.ownStatic.publicKey := by
  intro fp hFp
  obtain ⟨v, hNeeded, -⟩ := h.agreed
  cases v with
  | false =>
      rw [(h.unprompted hNeeded).1, (h.unprompted hNeeded).2] at hFp
      cases hFp
  | true =>
      rw [(h.prompted hNeeded).1, (h.prompted hNeeded).2] at hFp
      simpa using hFp

/-- Where both sides know a key, the flags lead to Noise IK at once, with
these keys. -/
theorem OpeningRecords.trusted {rs trusted : Key32 UInt8} {es es' xs xs' : List Event}
    (h : OpeningRecords true true es es') (hIk : IkRecords rs trusted xs xs') :
    Concluded na c m choice (es ++ xs) (es' ++ xs') := by
  have hClient := needPairing_grows (List.prefix_append es xs) h.client
  have hServer := needPairing_grows (List.prefix_append es' xs') h.server
  refine ⟨h.toMatched.append hIk.toMatched, ⟨false, hClient, hServer⟩, ?_, ?_, ?_, ?_⟩
  · intro _
    simp [h.noPrompt, hIk.noPrompt]
  all_goals
    intro hNeeded
    cases hClient.symm.trans hNeeded

/-- Where one side lacks a key, they lead to the pairing on both sides. -/
theorem OpeningRecords.pairs {stored stored' : Bool} {es es' xs xs' : List Event}
    (h : OpeningRecords stored stored' es es') (hPair : (!stored || !stored') = true)
    (hPairing : PairingRecords na c m choice xs xs') :
    Concluded na c m choice (es ++ xs) (es' ++ xs') := by
  have hClient := needPairing_grows (List.prefix_append es xs) h.client
  have hServer := needPairing_grows (List.prefix_append es' xs') h.server
  rw [Bool.or_comm] at hServer
  refine ⟨h.toMatched.append hPairing.toMatched, ⟨_, hClient, hServer⟩, ?_, ?_, ?_, ?_⟩
  · intro hNot
    rw [hClient, hPair] at hNot
    cases hNot
  · intro _
    simp [h.noPrompt, hPairing.prompt, hPairing.prompt']
  · intro _ hApproved
    simp only [List.filterMap_append, h.noIk, List.nil_append]
    exact hPairing.approved hApproved
  · intro _ hRejected
    simp only [List.filterMap_append, h.noIk, List.nil_append]
    exact hPairing.rejected hRejected

/-- The canonical order of the steps. -/
theorem handshake_concludes (hNa : na.AeadContract) (hInTime : master.DecidesInTime) :
    ∃ es es', Ends (start na c m ip slave master) es es' ∧ Concluded na c m master.choice es es' := by
  have hStart : Gets (start na c m ip slave master) (c.handshake na) slave {} [] (m.handshake na ip)
      master {} [] := ⟨[], [], .refl _, rfl, rfl⟩
  obtain ⟨es, es', hOpening, hOpened⟩ := opens hStart
  have hPairs : ∀ {stored stored'}, OpeningRecords stored stored' es es' →
      (!stored || !stored') = true →
      Gets (start na c m ip slave master) (pairFirst na c m.ownDeviceId) slave.tick.tick {} es
        (approveFirst na m ip c.ownDeviceId) master.tick.tick {} es' →
      ∃ fs fs', Ends (start na c m ip slave master) fs fs' ∧
        Concluded na c m master.choice fs fs' := by
    intro stored stored' hRecords hPair hGets
    obtain ⟨xs, xs', hEnds, hPairing⟩ := pair_runs hNa (by exact hInTime.decides)
      (by exact hInTime.inTime) hGets
    exact ⟨_, _, hEnds, hRecords.pairs hPair hPairing⟩
  cases hRs : slave.knownPeers.getPubkey m.ownDeviceId with
  | none =>
      rw [hRs] at hOpening hOpened
      cases hTrusted : master.knownPeers.getPubkey c.ownDeviceId <;> rw [hTrusted] at hOpened <;>
        exact hPairs hOpening rfl hOpened
  | some rs =>
      cases hTrusted : master.knownPeers.getPubkey c.ownDeviceId with
      | none =>
          rw [hRs, hTrusted] at hOpening hOpened
          exact hPairs hOpening rfl hOpened
      | some trusted =>
          rw [hRs, hTrusted] at hOpening hOpened
          obtain ⟨xs, xs', hEnds, hIk⟩ := ik_runs hNa hOpened
          exact ⟨_, _, hEnds, hOpening.trusted hIk⟩

/-- A receive reads no more than it takes from the connection. -/
theorem received_le_taken {o : Op} {l : Machine} {i : Inbox UInt8} {r : Reply Op Ans Machine UInt8 o}
    (h : act o l i = some r) :
    ((received ⟨o, r.answer⟩).map fun piece => piece.2.length).getD 0 ≤ r.taken := by
  cases o with
  | recvAll phase len deadline =>
      obtain ⟨⟨answer, taken⟩, hRead, rfl⟩ := Option.map_eq_some_iff.mp h
      cases answer with
      | none => exact Nat.zero_le _
      | some data =>
          unfold Inbox.read at hRead
          split at hRead
          · exact Nat.le_of_eq (data.property.trans (Prod.mk.inj (Option.some.inj hRead)).2)
          · split at hRead <;> cases hRead
  | _ => exact Nat.zero_le _

/-- What a send puts on the connection is its data. -/
theorem sent_length {o : Op} {l : Machine} {i : Inbox UInt8} {r : Reply Op Ans Machine UInt8 o}
    (h : act o l i = some r) :
    ((sent ⟨o, r.answer⟩).map fun piece => piece.2.length).getD 0 = r.sent.length := by
  cases o with
  | recvAll =>
      obtain ⟨r', hRead, rfl⟩ := Option.map_eq_some_iff.mp h
      rfl
  | loadDecision =>
      simp only [act] at h
      split at h <;> cases h <;> rfl
  | _ => cases h <;> rfl

/-- What holds at the end of a handshake leaves no other way to get there. -/
theorem Concluded.inStep {f g : Handshake} (h : Concluded na c m choice f.left.trace f.right.trace)
    (hRun : (start na c m ip slave master).Runs handler handler g) (hRest : g.Runs handler handler f) :
    InStep c m choice g.left.trace g.right.trace := by
  obtain ⟨hLeft, hRight⟩ := hRest.trace
  obtain ⟨v, hClient, hServer⟩ := h.agreed
  have hKnown : ∀ {v'}, needPairing g.left.trace = some v' → v' = v := by
    intro v' hV
    exact Option.some.inj ((needPairing_grows hLeft hV).symm.trans hClient)
  have hKnown' : ∀ {v'}, needPairing g.right.trace = some v' → v' = v := by
    intro v' hV
    exact Option.some.inj ((needPairing_grows hRight hV).symm.trans hServer)
  have hNeeds : ∀ {v'}, v' = v → v' = true → needPairing f.left.trace = some true := by
    rintro v' rfl rfl
    exact hClient
  constructor
  · refine Pair.Runs.read_prefix received_le_taken sent_length rfl rfl hRun.swap hRest.swap
      h.toServer fun piece hPiece => h.nonempty piece (List.mem_append_left _ ?_)
    rw [← h.toServer]
    exact hPiece
  · refine Pair.Runs.read_prefix received_le_taken sent_length rfl rfl hRun hRest h.toClient
      fun piece hPiece => h.nonempty piece (List.mem_append_right _ ?_)
    rw [← h.toClient]
    exact hPiece
  · intro v₁ v₂ h₁ h₂
    rw [hKnown h₁, hKnown' h₂]
  · intro fp hFp fp' hFp'
    have hFp := h.displayed fp (List.mem_append_left _ ((hLeft.filterMap shown).subset hFp))
    have hFp' := h.displayed fp' (List.mem_append_right _ ((hRight.filterMap shown).subset hFp'))
    rw [hFp, hFp']
  · intro hApproved
    refine ⟨fun hNeeded k hK => ?_, fun hNeeded k hK => ?_⟩
    · have hKey := (hLeft.filterMap ikStarted).subset hK
      rw [(h.approved (hNeeds (hKnown hNeeded) rfl) hApproved).1] at hKey
      exact List.mem_singleton.mp hKey
    · have hKey := (hRight.filterMap ikStarted).subset hK
      rw [(h.approved (hNeeds (hKnown' hNeeded) rfl) hApproved).2] at hKey
      exact List.mem_singleton.mp hKey
  · intro hRejected
    refine ⟨fun hNeeded => ?_, fun hNeeded => ?_⟩
    · have hNone := (h.rejected (hNeeds (hKnown hNeeded) rfl) hRejected).1
      exact List.prefix_nil.mp (hNone ▸ hLeft.filterMap ikStarted)
    · have hNone := (h.rejected (hNeeds (hKnown' hNeeded) rfl) hRejected).2
      exact List.prefix_nil.mp (hNone ▸ hRight.filterMap ikStarted)

/-- Both sides go through the handshake in step, in whatever
order they run. -/
theorem handshake_in_step (hNa : na.AeadContract) (hInTime : master.DecidesInTime) :
    ∃ f, (start na c m ip slave master).Runs handler handler f ∧ f.Done handler handler ∧
      Concluded na c m master.choice f.left.trace f.right.trace ∧
      ∀ g, (start na c m ip slave master).Runs handler handler g →
        g.Runs handler handler f ∧ InStep c m master.choice g.left.trace g.right.trace := by
  obtain ⟨es, es', ⟨f, hRuns, hDone, rfl, rfl⟩, hNotable⟩ :=
    handshake_concludes (c := c) (m := m) hNa hInTime
  have hConcluded := hNotable.of_notable
  refine ⟨f, hRuns, hDone, hConcluded, fun g hG => ?_⟩
  have hRest := hRuns.confluent hDone hG
  exact ⟨hRest, hConcluded.inStep hG hRest⟩

end Whole

section Instance

def client : TcpClient where
  ownDeviceId := 1
  ownStatic := plainKeypair 1
  peerIp := "192.0.2.2"
  peerPort := 5000
  giveUpAfter := seconds 30

def server : TcpServer where
  ownDeviceId := 2
  ownStatic := plainKeypair 2
  audioPort := 5001

/-- A Slave that knows an outdated key of the Master. -/
def slaveMachine : Machine where
  clock n := n
  knownPeers := ⟨fun _ => some (plainKeypair 9).publicKey, fun _ => some (plainKeypair 9).publicKey⟩
  ephemeral := plainKeypair 3

/-- A Master that knows nobody, and whose user approves after two polls. -/
def masterMachine : Machine where
  clock n := n
  knownPeers := ⟨fun _ => none, fun _ => none⟩
  ephemeral := plainKeypair 4
  polls := 2
  choice := .approved

/-- The Master's user decides after two polls, which is in time. -/
theorem masterMachine_decides : masterMachine.DecidesInTime where
  decides := by decide
  inTime := by
    intro k hk
    have hLate : 0 + 4 + k < 0 + 3 + 120 * 1000000000 := by
      have hPolls : k ≤ 2 := hk
      omega
    exact hLate

/-- An outdated key of the Slave does not get the two out of step. They
conclude the same in every order of their steps. -/
theorem handshake_in_step_stale :
    ∃ f, (start plainSodium client server "192.0.2.1" slaveMachine masterMachine).Runs handler handler f ∧
      f.Done handler handler ∧
      Concluded plainSodium client server .approved f.left.trace f.right.trace ∧
      ∀ g, (start plainSodium client server "192.0.2.1" slaveMachine masterMachine).Runs handler handler g →
        g.Runs handler handler f ∧ InStep client server .approved g.left.trace g.right.trace :=
  handshake_in_step plainSodium_contract.toAeadContract masterMachine_decides

end Instance

end NoCapKVM.Discovery.HandshakeAgreement
