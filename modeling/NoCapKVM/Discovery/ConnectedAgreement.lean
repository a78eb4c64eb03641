import NoCapKVM.Discovery.Wire
import NoCapKVM.Discovery.Playback
import NoCapKVM.Discovery.PlainSodium

/-! What the client's `Connected` tells of the server. The last message of the handshake
is the server's, and what the server still checks after it is not answered. -/
namespace NoCapKVM.Discovery.ConnectedAgreement

open Thread

/-- A client and a server with their own surroundings. -/
abbrev peerSystem : System Op Ans Action World :=
  connSystem fun _ => True

variable {na : Sodium UInt8}

section Client

variable {c : TcpClient} {α : Type}

/-- The client has read that the server needs no pairing, and has sent that it
needs none. -/
def Unpaired (past : List ConnLabel) : Prop :=
  (heard past)[8]? = some 0 ∧ ∀ w, Wire past w → w[8]? = some 0

/-- What the client has read when it is connected: the server's last message,
after a handshake with or without a pairing. -/
def Complete (past : List ConnLabel) : Prop :=
  (57 ≤ (heard past).length ∧ Unpaired past) ∨ 90 ≤ (heard past).length

/-- The client connects only with all that in. -/
def okClient (o : Op) (past : List ConnLabel) (_ : World) : Prop :=
  ∀ info, o = .assignStatus info → info.state = .connected → Complete past

/-- A byte of a sequence stays where it is when more is appended. -/
theorem getElem?_mono {a b : List UInt8} {n : Nat} {x : UInt8} (h : a <+: b) (hA : a[n]? = some x) :
    b[n]? = some x := by
  obtain ⟨rest, rfl⟩ := h
  have hLt : n < a.length := (List.getElem?_eq_some_iff.mp hA).1
  rw [List.getElem?_append_left hLt]
  exact hA

/-- What was read and sent stays so. The facts about a handshake are therefore
never lost again. -/
theorem unpaired_cons {past : List ConnLabel} (l : ConnLabel) (h : Unpaired past) : Unpaired (l :: past) := by
  refine ⟨getElem?_mono (heard_cons l past) h.1, fun w hWire => ?_⟩
  obtain ⟨w', hOld, hPrefix⟩ := wire_cons hWire
  exact getElem?_mono hPrefix (h.2 w' hOld)

/-- What was read never becomes less. -/
theorem length_heard_cons {n : Nat} {past : List ConnLabel} (l : ConnLabel) (h : n ≤ (heard past).length) :
    n ≤ (heard (l :: past)).length :=
  Nat.le_trans h (heard_cons l past).length_le

theorem complete_cons {past : List ConnLabel} (l : ConnLabel) (h : Complete past) : Complete (l :: past) :=
  h.imp (fun ⟨hLen, hUnpaired⟩ => ⟨length_heard_cons l hLen, unpaired_cons l hUnpaired⟩) (length_heard_cons l)

/-- What nothing makes false. -/
def Lasting (P : List ConnLabel → Prop) : Prop :=
  ∀ l past, P past → P (l :: past)

/-- A fact that nothing makes false does not depend on what the
surroundings do. -/
theorem Lasting.stable {P : List ConnLabel → Prop} (hP : Lasting P) : Stable peerSystem fun past _ => P past :=
  fun past _ _ _ h _ => hP _ past h

/-- Operations other than the publication of a connection. -/
def IsBefore : Op → Prop
  | .assignStatus info => info.state ≠ .connected
  | _ => True

/-- Only the publication of a connection has a condition. -/
theorem okClient_before {o : Op} (hO : IsBefore o) (past : List ConnLabel) (s : World) : okClient o past s := by
  rintro info rfl hUp
  exact absurd hUp hO

/-- An operation that publishes nothing keeps every lasting fact, whatever it
answers. -/
theorem before_op {P : List ConnLabel → Prop} (hP : Lasting P) {o : Op} {next : Ans o → ConnProg α}
    {Q : α → Assertion Op Ans Action World} {past : List ConnLabel} {s : World} (hO : IsBefore o) (h : P past)
    (hNext : ∀ r past s, P past → Safe peerSystem okClient (next r) Q past s) :
    Safe peerSystem okClient (.op o next) Q past s :=
  .op (fun past _ => P past) hP.stable h (fun past s _ => okClient_before hO past s)
    fun past _ r s' h _ => hNext r _ s' (hP _ past h)

/-- So does a whole program of such operations. -/
theorem before_uses {P : List ConnLabel → Prop} (hP : Lasting P) {p : ConnProg α} (hUses : p.Uses IsBefore)
    {past : List ConnLabel} {s : World} (h : P past) :
    Safe peerSystem okClient p (fun _ past _ => P past) past s :=
  Safe.frame (fun past _ => P past) hP.stable (fun _ past s hO _ => okClient_before hO past s)
    (fun o past _ r _ _ h _ => hP (.did o r) past h) hUses h

/-- A read that succeeds has returned all its bytes. -/
theorem before_recv {P : List ConnLabel → Prop} (hP : Lasting P) {n len : Nat} {phase : Phase} {deadline : Time}
    {next : Option (Bytes UInt8 len) → ConnProg α} {Q : α → Assertion Op Ans Action World}
    {past : List ConnLabel} {s : World} (h : n ≤ (heard past).length ∧ P past)
    (hNone : ∀ past s, Safe peerSystem okClient (next none) Q past s)
    (hSome : ∀ data past s, n + len ≤ (heard past).length ∧ P past →
      Safe peerSystem okClient (next (some data)) Q past s) :
    Safe peerSystem okClient (.op (.recvAll phase len deadline) next) Q past s := by
  have hBoth : Lasting fun past => n ≤ (heard past).length ∧ P past :=
    fun l past h => ⟨length_heard_cons l h.1, hP l past h.2⟩
  refine .op (fun past _ => n ≤ (heard past).length ∧ P past) hBoth.stable h
    (fun past s _ => okClient_before (o := .recvAll ..) trivial past s) fun past s r s' h _ => ?_
  cases r with
  | none => exact hNone _ _
  | some data =>
      refine hSome data _ _ ⟨?_, hP _ past h.2⟩
      show n + len ≤ (heard past ++ data.val).length
      rw [List.length_append, data.property]
      exact Nat.add_le_add_right h.1 len

/-- The results of a part of the handshake, with what was read by then. -/
def Reads (n : Nat) (P : List ConnLabel → Prop) (result : Except AttemptOutcome α) : Assertion Op Ans Action World :=
  fun past _ => ∀ a, result = .ok a → n ≤ (heard past).length ∧ P past

/-- The bytes that a part of the handshake has read stay read, whatever the
surroundings do. -/
theorem reads_stable {n : Nat} {P : List ConnLabel → Prop} (hP : Lasting P) (result : Except AttemptOutcome α) :
    Stable peerSystem (Reads n P result) :=
  fun past _ a _ h _ x hOk => ⟨length_heard_cons (.env a) (h x hOk).1, hP _ past (h x hOk).2⟩

/-- A part that is abandoned has no result. -/
theorem abandon_safe {n : Nat} {P : List ConnLabel → Prop} (hP : Lasting P) (outcome : AttemptOutcome)
    (past : List ConnLabel) (s : World) :
    Safe peerSystem okClient (TcpClient.abandon outcome : ConnProg (Except AttemptOutcome α)) (Reads n P) past s := by
  refine .op_any (okClient_before (o := .closeSocket) trivial) (fun _ past s => ?_) past s
  refine .op_any (okClient_before (o := .updateStatus _) trivial) (fun _ past s => ?_) past s
  exact Safe.ret (reads_stable hP _) fun _ hOk => nomatch hOk

/-- A key exchange that succeeds has read its second message, of 48 bytes. -/
theorem initiateIk_safe {P : List ConnLabel → Prop} (hP : Lasting P) (d : UInt64) (rs : Key32 UInt8) {n : Nat}
    {past : List ConnLabel} {s : World} (h : n ≤ (heard past).length ∧ P past) :
    Safe peerSystem okClient (c.initiateIk na d rs) (Reads (n + 48) P) past s := by
  have hBoth : Lasting fun past => n ≤ (heard past).length ∧ P past :=
    fun l past h => ⟨length_heard_cons l h.1, hP l past h.2⟩
  simp only [TcpClient.initiateIk, Prog.bind_def, Prog.perform_bind, runIkInitiator_eq, Prog.interp, ikOp,
    Prog.op_bind]
  refine before_op hBoth trivial h fun now past s h => ?_
  refine before_op hBoth trivial h fun _ past s h => ?_
  refine before_op hBoth trivial h fun e past s h => ?_
  cases ikWriteMsg1 na c.ownStatic rs e with
  | none =>
      simp only [Prog.ret_bind, Prog.interp]
      exact abandon_safe hP _ past s
  | some m =>
      obtain ⟨msg1, state⟩ := m
      simp only [Prog.interp, ikOp, Prog.perform_bind, Prog.op_bind]
      refine before_op hBoth trivial h fun sent past s h => ?_
      cases sent with
      | false => exact abandon_safe hP _ past s
      | true =>
          simp only [if_true, Prog.interp, ikOp, Prog.perform_bind, Prog.op_bind]
          refine before_recv hP h (fun past s => abandon_safe hP _ past s) fun msg2 past s h => ?_
          simp only [Prog.ret_bind, Option.bind_some]
          cases ikReadMsg2 na c.ownStatic rs e state msg2 with
          | none => exact abandon_safe hP _ past s
          | some ik => exact Safe.ret (reads_stable hP _) fun _ _ => h

/-- A pairing that succeeds has read a key and a decision on top of the nine
bytes before. -/
theorem pair_safe (d : UInt64) {past : List ConnLabel} {s : World} (h : 9 ≤ (heard past).length ∧ True) :
    Safe peerSystem okClient (c.pair na d) (Reads 42 fun _ => True) past s := by
  have hTrue : Lasting fun _ => True := fun _ _ _ => trivial
  have hBoth : ∀ n, Lasting fun past => n ≤ (heard past).length ∧ True :=
    fun n l past h => ⟨length_heard_cons l h.1, trivial⟩
  refine before_op (hBoth 9) trivial h fun now past s h => ?_
  simp only [Prog.bind_def, Prog.ret_bind]
  refine before_op (hBoth 9) trivial h fun sent past s h => ?_
  cases sent with
  | false => exact abandon_safe hTrue _ past s
  | true =>
      refine before_recv hTrue h (fun past s => abandon_safe hTrue _ past s) fun k past s h => ?_
      refine before_op (hBoth 41) nofun h fun _ past s h => ?_
      refine before_op (hBoth 41) trivial h fun now past s h => ?_
      refine before_recv hTrue h (fun past s => abandon_safe hTrue _ past s) fun decision past s h => ?_
      simp only [Prog.ret_bind]
      split
      · exact abandon_safe hTrue _ past s
      · refine before_op (hBoth 42) trivial h fun _ past s h => ?_
        exact Safe.ret (reads_stable hTrue _) fun _ _ => h

/-- The ninth byte of two pieces of eight and one bytes. -/
theorem ninth {a b : List UInt8} {x : UInt8} (hA : a.length = 8) (hB : b = [x]) : (a ++ b)[8]? = some x := by
  rw [List.getElem?_append_right (by omega), hA, hB]
  rfl

/-- An exchange of the client, as long as exactly `r` was read and
`w` was sent. -/
theorem client_exchange {phase : Phase} {data : List UInt8} {len : Nat} {deadline : Time} {r w : List UInt8}
    {next : Option (Bytes UInt8 len) → ConnProg α} {Q : α → Assertion Op Ans Action World}
    {past : List ConnLabel} {s : World} (h : Exact r w past)
    (hNone : ∀ past s, Safe peerSystem okClient (next none) Q past s)
    (hSome : ∀ x past s, Exact (r ++ x.val) (w ++ data) past → Safe peerSystem okClient (next (some x)) Q past s) :
    Safe peerSystem okClient ((exchange phase data len deadline).bind next) Q past s := by
  refine exact_send h (fun past s _ => okClient_before (o := .sendAll ..) trivial past s)
    (fun past s _ => hNone _ s) fun past s h => ?_
  exact exact_recv h (fun past s _ => okClient_before (o := .recvAll ..) trivial past s)
    (fun past s _ => hNone past s) hSome

/-- Operations that transfer nothing leave the exact account of the
bytes as it is. -/
theorem client_op {o : Op} {next : Ans o → ConnProg α} {Q : α → Assertion Op Ans Action World} {r w : List UInt8}
    {past : List ConnLabel} {s : World} (hO : IsMute o) (hBefore : IsBefore o) (h : Exact r w past)
    (hNext : ∀ x past s, Exact r w past → Safe peerSystem okClient (next x) Q past s) :
    Safe peerSystem okClient (.op o next) Q past s :=
  exact_op hO h (fun past s _ => okClient_before hBefore past s) hNext

def Completes (result : Except AttemptOutcome α) : Assertion Op Ans Action World :=
  fun past _ => ∀ a, result = .ok a → Complete past

/-- A handshake that is complete stays complete. -/
theorem completes_stable (result : Except AttemptOutcome α) : Stable peerSystem (Completes result) :=
  fun _ _ a _ h _ x hOk => complete_cons (.env a) (h x hOk)

/-- A client that gives up claims nothing. -/
theorem abandon_completes (outcome : AttemptOutcome) (past : List ConnLabel) (s : World) :
    Safe peerSystem okClient (TcpClient.abandon outcome : ConnProg (Except AttemptOutcome α)) Completes past s := by
  refine .op_any (okClient_before (o := .closeSocket) trivial) (fun _ past s => ?_) past s
  refine .op_any (okClient_before (o := .updateStatus _) trivial) (fun _ past s => ?_) past s
  exact Safe.ret (completes_stable _) fun _ hOk => nomatch hOk

/-- The exact account says in particular how many bytes were read. -/
theorem length_of_exact {r w : List UInt8} {past : List ConnLabel} {n : Nat} (h : Exact r w past)
    (hLen : r.length = n) : n ≤ (heard past).length := by
  rw [h.1]
  exact Nat.le_of_eq hLen.symm

/-- A handshake that succeeds is complete: the last message of the server has
been read. -/
theorem handshake_safe {past : List ConnLabel} {s : World} (h : Exact [] [] past) :
    Safe peerSystem okClient (c.handshake na) Completes past s := by
  refine client_op trivial trivial h fun now past s h => ?_
  simp only [Prog.bind_def, Prog.ret_bind]
  refine client_exchange h (fun past s => abandon_completes _ past s) fun id past s h => ?_
  refine client_op trivial trivial h fun stored past s h => ?_
  refine client_op trivial trivial h fun now past s h => ?_
  simp only [Prog.ret_bind]
  refine client_exchange h (fun past s => abandon_completes _ past s) fun flag past s h => ?_
  have hLen : 9 ≤ (heard past).length := by
    refine length_of_exact h ?_
    simp only [List.nil_append, List.length_append, id.property, flag.property]
  have hPair : Safe peerSystem okClient ((c.pair na (decodeDeviceId id)).bind (c.initiateAfter na (decodeDeviceId id)))
      Completes past s := by
    refine TcpClient.pair_initiate_safe (pair_safe _ ⟨hLen, trivial⟩)
      (fun _ _ _ _ => Safe.ret (completes_stable _) fun _ hOk => nomatch hOk) fun rs past s hResult => ?_
    refine (initiateIk_safe (P := fun _ => True) (fun _ _ _ => trivial) _ rs (hResult rs rfl)).mono ?_
    exact fun _ past s hDone x hOk => .inr (hDone x hOk).1
  refine c.branch_cases na _ stored (flag.only != 0) (P := (Safe peerSystem okClient · Completes past s)) hPair
    fun rs hStored hFlag => ?_
  have hZero : flag.val = [0] := by
    have hOnly := flag.only_cons []
    rw [List.append_nil, bne_eq_false_iff_eq.mp hFlag] at hOnly
    exact hOnly
  have hUnpaired : Unpaired past := by
    refine ⟨?_, fun w hWire => ?_⟩
    · rw [h.1]
      exact ninth (by simp [id.property]) hZero
    · rw [h.2 w hWire, hStored]
      exact ninth (by simp [(encodeDeviceId c.ownDeviceId).property]) rfl
  refine (initiateIk_safe (fun l _ => unpaired_cons l) _ rs ⟨hLen, hUnpaired⟩).mono ?_
  exact fun _ past s hDone x hOk => .inl (hDone x hOk)

/-! The publication and what comes after it. -/

/-- Operations that publish no connection, and those of a session. -/
theorem before_of_session {o : Op} (h : IsSessionOp o) : IsBefore o := by
  cases o <;> first
    | exact h.elim
    | trivial

/-- A session begins with the publication, which is allowed because the
handshake is complete. -/
theorem session_safe (d : UInt64) (ik : IkResult UInt8) {past : List ConnLabel} {s : World} (h : Complete past) :
    Safe peerSystem okClient (c.session d ik) (fun _ _ _ => True) past s := by
  have hLasting : Lasting Complete := fun l _ => complete_cons l
  refine .op (fun past _ => Complete past) hLasting.stable h (fun past s h _ _ _ => h) fun past s _ s' _ _ => ?_
  have hRound := fun x => (c.sessionRound_uses x).mono fun _ => before_of_session
  refine before_uses (P := fun _ => True) (fun _ _ _ => trivial) ?_ trivial
  simp [IsBefore, hRound]

/-- A client never publishes a connection before it has read the last message
of the server's handshake. -/
theorem runOnce_safe {past : List ConnLabel} {s : World} (h : Exact [] [] past) :
    Safe peerSystem okClient (c.runOnce na) (fun _ _ _ => True) past s := by
  have hEnd : ∀ {p : ConnProg AttemptOutcome}, p.Uses IsBefore → ∀ past s, Exact [] [] past →
      Safe peerSystem okClient p (fun _ _ _ => True) past s := fun hUses past s _ =>
    before_uses (P := fun _ => True) (fun _ _ _ => trivial) hUses trivial
  apply c.runOnce_cases na (C := fun o => IsMute o ∧ IsBefore o)
    (M := fun p => ∀ past s, Exact [] [] past → Safe peerSystem okClient p (fun _ _ _ => True) past s)
    (fun o next hO hNext past s h => client_op hO.1 hO.2 h hNext) ⟨trivial, nofun⟩ ⟨trivial, trivial⟩ ⟨trivial, trivial⟩
  · exact hEnd ⟨trivial, fun _ => trivial⟩
  · exact hEnd ⟨trivial, fun _ => ⟨trivial, fun _ => trivial⟩⟩
  · intro past s h
    refine Safe.bind ((handshake_safe h).mono fun result past s hResult => ?_)
    cases result with
    | error outcome => exact Safe.ret (fun _ _ _ _ _ _ => trivial) trivial
    | ok result => exact session_safe _ _ (hResult result rfl)
  · exact h

end Client

section Server

variable {c : TcpServer} {ip : String} {α : Type} {r w : List UInt8}

/-- `run_ik_responder` has succeeded: its last message is sent. -/
def Responded (past : List ConnLabel) : Prop :=
  ∃ data, .did (.sendAll .ikMsg2 data) true ∈ past

/-- What the server has read and sent shows that a pairing is needed. -/
def Paired (r w : List UInt8) : Prop :=
  w[8]? = some 1 ∨ ∃ b, r[8]? = some b ∧ b ≠ 0

/-- Too little for a client that is connected. -/
def Small (r w : List UInt8) : Prop :=
  w.length < 57 ∨ w.length < 90 ∧ Paired r w

/-- Before its last message of the handshake, a server has sent too little. -/
def Bounded (past : List ConnLabel) : Prop :=
  Responded past ∨ ∀ w, Wire past w → Small (heard past) w

def okServer (o : Op) (past : List ConnLabel) (_ : World) : Prop :=
  ∀ x, Bounded (.did o x :: past)

/-- The last message of the server, once sent, stays sent. -/
theorem responded_cons {past : List ConnLabel} (l : ConnLabel) (h : Responded past) : Responded (l :: past) := by
  obtain ⟨data, hMem⟩ := h
  exact ⟨data, List.mem_cons_of_mem l hMem⟩

/-- That a pairing is needed is seen from the first bytes, and more bytes do
not change it. -/
theorem paired_mono {r' w' : List UInt8} (hR : r <+: r') (hW : w <+: w') (h : Paired r w) : Paired r' w' := by
  rcases h with hOwn | ⟨b, hPeer, hB⟩
  · exact .inl (getElem?_mono hW hOwn)
  · exact .inr ⟨b, getElem?_mono hR hPeer, hB⟩

/-- What is too little for a client stays too little while only the
server reads. -/
theorem small_mono {r' : List UInt8} (hR : r <+: r') (h : Small r w) : Small r' w :=
  h.imp id fun ⟨hLen, hPaired⟩ => ⟨hLen, paired_mono hR List.prefix_rfl hPaired⟩

theorem bounded_env {past : List ConnLabel} (a : Action) (h : Bounded past) : Bounded (.env a :: past) :=
  h.imp (responded_cons _) fun hSmall w hWire => hSmall w (wire_env hWire)

/-- What the server has sent does not depend on its surroundings. -/
theorem bounded_stable : Stable peerSystem fun past _ => Bounded past :=
  fun _ _ a _ h _ => bounded_env a h

/-- An operation that sends nothing keeps the bound. -/
theorem bounded_silent {o : Op} (hO : ¬ IsSend o) (x : Ans o) {past : List ConnLabel} (h : Bounded past) :
    Bounded (.did o x :: past) :=
  h.imp (responded_cons _) fun hSmall w hWire =>
    small_mono (heard_cons _ past) (hSmall w (wire_silent hO hWire))

/-- The exact account of the bytes gives the bound where it is
small enough. -/
theorem bounded_of_exact {past : List ConnLabel} (h : Exact r w past) (hSmall : Small r w) : Bounded past := by
  refine .inr fun w' hWire => ?_
  rw [h.1, h.2 w' hWire]
  exact hSmall

/-- A transfer that may fail keeps the bound if each part of its data does. -/
theorem bounded_send {past : List ConnLabel} {phase : Phase} {data : List UInt8} (h : Exact r w past)
    (hSmall : ∀ part, part <+: data → Small r (w ++ part)) (x : Bool) :
    Bounded (.did (.sendAll phase data) x :: past) := by
  cases x with
  | true => exact bounded_of_exact (h.sent phase data) (hSmall data List.prefix_rfl)
  | false =>
      refine .inr fun w' hWire => ?_
      obtain ⟨part, rfl, hPart, -⟩ := h.cut hWire
      have hHeard : heard (.did (.sendAll phase data) false :: past) = r := h.1
      rw [hHeard]
      exact hSmall part hPart

/-- Fewer than 57 bytes are too little for a client, since that is the
shortest handshake of a server. -/
theorem small_of_length {part data : List UInt8} (hLen : w.length + data.length < 57) (hPart : part <+: data) :
    Small r (w ++ part) := by
  have hLe := hPart.length_le
  left
  rw [List.length_append]
  omega

/-- Once the last message is sent, the server may do anything. -/
theorem responded_safe (p : ConnProg α) {past : List ConnLabel} {s : World} (h : Responded past) :
    Safe peerSystem okServer p (fun _ past _ => Responded past) past s :=
  Safe.frame (fun past _ => Responded past) (fun _ _ _ _ h _ => responded_cons _ h)
    (fun _ _ _ _ h _ => .inl (responded_cons _ h)) (fun _ _ _ _ _ _ h _ => responded_cons _ h)
    p.uses_all h

/-- Operations that transfer nothing keep the exact account on the side
of the server. -/
theorem server_op {o : Op} {next : Ans o → ConnProg α} {Q : α → Assertion Op Ans Action World}
    {past : List ConnLabel} {s : World} (hO : IsMute o) (hSmall : Small r w) (h : Exact r w past)
    (hNext : ∀ x past s, Exact r w past → Safe peerSystem okServer (next x) Q past s) :
    Safe peerSystem okServer (.op o next) Q past s :=
  exact_op hO h (fun _ _ h x => bounded_of_exact (h.mute hO x) hSmall) hNext

/-- A receive adds what it has read to the account. Where it fails, the bound
remains. -/
theorem server_recv {phase : Phase} {len : Nat} {deadline : Time} {next : Option (Bytes UInt8 len) → ConnProg α}
    {Q : α → Assertion Op Ans Action World} {past : List ConnLabel} {s : World} (hSmall : Small r w)
    (h : Exact r w past) (hNone : ∀ past s, Bounded past → Safe peerSystem okServer (next none) Q past s)
    (hSome : ∀ x past s, Exact (r ++ x.val) w past → Safe peerSystem okServer (next (some x)) Q past s) :
    Safe peerSystem okServer (.op (.recvAll phase len deadline) next) Q past s :=
  exact_recv h (fun _ _ h x => bounded_silent id x (bounded_of_exact h hSmall))
    (fun past s h => hNone past s (bounded_of_exact h hSmall)) hSome

/-- An exchange before the key exchange adds both directions to the account. A
part that was sent in vain is still too little for a client. -/
theorem server_exchange {phase : Phase} {data : List UInt8} {len : Nat} {deadline : Time}
    {next : Option (Bytes UInt8 len) → ConnProg α} {Q : α → Assertion Op Ans Action World}
    {past : List ConnLabel} {s : World} (hLen : w.length + data.length < 57) (h : Exact r w past)
    (hNone : ∀ past s, Bounded past → Safe peerSystem okServer (next none) Q past s)
    (hSome : ∀ x past s, Exact (r ++ x.val) (w ++ data) past → Safe peerSystem okServer (next (some x)) Q past s) :
    Safe peerSystem okServer ((exchange phase data len deadline).bind next) Q past s := by
  have hSends : ∀ past, Exact r w past → ∀ x, Bounded (.did (.sendAll phase data) x :: past) := fun past h =>
    bounded_send h fun part hPart => small_of_length hLen hPart
  refine exact_send h (fun past s h => hSends past h) (fun past s h => hNone _ s (hSends past h false))
    fun past s h => ?_
  exact server_recv (small_of_length hLen List.prefix_rfl) h hNone hSome

/-- What may be sent before Noise IK. -/
def Ready (r w : List UInt8) : Prop :=
  w.length ≤ 9 ∨ w.length ≤ 42 ∧ Paired r w

/-- What may be sent before Noise IK is too little for a client. -/
theorem Ready.small (h : Ready r w) : Small r w := by
  left
  rcases h with hLen | ⟨hLen, -⟩ <;> omega

/-- To read more leaves the server ready. -/
theorem Ready.received (h : Ready r w) (data : List UInt8) : Ready (r ++ data) w :=
  h.imp id fun ⟨hLen, hPaired⟩ =>
    ⟨hLen, paired_mono (List.prefix_append ..) List.prefix_rfl hPaired⟩

/-- Without its last byte the last message is no end of the handshake. -/
theorem Ready.cut (h : Ready r w) {part : List UInt8} (hPart : part.length < kMsg2Size) :
    Small r (w ++ part) := by
  have hLt : part.length < 48 := hPart
  rcases h with hLen | ⟨hLen, hPaired⟩
  · left
    rw [List.length_append]
    omega
  · right
    rw [List.length_append]
    exact ⟨by omega, paired_mono List.prefix_rfl (List.prefix_append ..) hPaired⟩

/-- A part of the handshake with a result has sent its last message. -/
def Answers (result : Option α) : Assertion Op Ans Action World :=
  fun past _ => result.isSome → Responded past

theorem answers_stable (result : Option α) : Stable peerSystem (Answers result) :=
  fun _ _ _ _ h _ hSome => responded_cons _ (h hSome)

/-- Without the exact account, operations that send nothing keep at
least the bound. -/
theorem quiet_op {o : Op} {next : Ans o → ConnProg α} {Q : α → Assertion Op Ans Action World}
    {past : List ConnLabel} {s : World} (hO : ¬ IsSend o) (h : Bounded past)
    (hNext : ∀ x past s, Bounded past → Safe peerSystem okServer (next x) Q past s) :
    Safe peerSystem okServer (.op o next) Q past s :=
  .op (fun past _ => Bounded past) bounded_stable h (fun _ _ h x => bounded_silent hO x h)
    fun _ _ x s' h _ => hNext x _ s' (bounded_silent hO x h)

/-- A part of the handshake without a result claims nothing. -/
theorem none_safe (past : List ConnLabel) (s : World) :
    Safe peerSystem okServer (.ret none : ConnProg (Option α)) Answers past s :=
  Safe.ret (answers_stable _) nofun

theorem drop_safe {past : List ConnLabel} {s : World} (h : Bounded past) :
    Safe peerSystem okServer (TcpServer.drop : ConnProg (Option α)) Answers past s :=
  quiet_op id h fun _ past s _ => none_safe past s

theorem reset_safe {past : List ConnLabel} {s : World} (h : Bounded past) :
    Safe peerSystem okServer (TcpServer.reset : ConnProg (Option α)) Answers past s :=
  quiet_op id h fun _ _ _ h => quiet_op id h fun _ past s _ => none_safe past s

/-- The key exchange of the server has a result only after its message is
sent. Until then a client has too little. -/
theorem respondIk_safe (hAead : na.AeadContract) (d : UInt64) (k : Key32 UInt8) {past : List ConnLabel}
    {s : World} (h : Exact r w past) (hReady : Ready r w) :
    Safe peerSystem okServer (c.respondIk na d k) Answers past s := by
  refine server_op trivial hReady.small h fun now past s h => ?_
  refine server_op trivial hReady.small h fun _ past s h => ?_
  simp only [Prog.bind_def, Prog.ret_bind, runIkResponder_eq, Prog.interp, ikOp, Prog.perform_bind, Prog.op_bind]
  refine server_recv hReady.small h (fun past s h => reset_safe h) fun msg1 past s h => ?_
  have hReady := hReady.received msg1.val
  have hReset : ∀ past s, Exact (r ++ msg1.val) w past → Safe peerSystem okServer
      (TcpServer.reset : ConnProg (Option (UInt64 × IkResult UInt8))) Answers past s :=
    fun past s h => reset_safe (bounded_of_exact h hReady.small)
  simp only [Option.bind_some]
  cases ikReadMsg1 na c.ownStatic msg1 with
  | none => exact hReset past s h
  | some hello =>
      refine server_op trivial hReady.small h fun e past s h => ?_
      simp only [Prog.ret_bind]
      cases hMsg2 : ikWriteMsg2 na hello e with
      | none => exact hReset past s h
      | some m =>
          obtain ⟨msg2, result⟩ := m
          have hLen := ikWriteMsg2_length hAead hMsg2
          have hSends : ∀ past, Exact (r ++ msg1.val) w past → ∀ x : Bool,
              Bounded (.did (.sendAll .ikMsg2 msg2) x :: past) := by
            intro past h x
            cases x with
            | true => exact .inl ⟨msg2, List.mem_cons_self⟩
            | false =>
                refine .inr fun w' hWire => ?_
                obtain ⟨part, rfl, -, hShort⟩ := h.cut hWire
                have hHeard : heard (.did (.sendAll .ikMsg2 msg2) false :: past) = r ++ msg1.val := h.1
                rw [hHeard]
                have hNe : msg2 ≠ [] := by
                  rintro rfl
                  cases hLen
                exact hReady.cut (hLen ▸ hShort hNe)
          refine .op (fun past _ => Exact (r ++ msg1.val) w past) (exact_stable _ _) h
            (fun past _ h x => hSends past h x) fun past _ x s h _ => ?_
          cases x with
          | false => exact reset_safe (hSends past h false)
          | true =>
              have hResponded : Responded (.did (.sendAll .ikMsg2 msg2) true :: past) := ⟨msg2, List.mem_cons_self⟩
              refine (responded_safe _ hResponded).mono ?_
              exact fun _ _ _ h _ => h

/-- The server has not sent more than fits before Noise IK. -/
def Prepared (result : Option α) : Assertion Op Ans Action World :=
  fun past _ => result.isSome → ∃ r w, Exact r w past ∧ Ready r w

/-- What the server has sent before Noise IK does not depend on its
surroundings. -/
theorem prepared_stable (result : Option α) : Stable peerSystem (Prepared result) := by
  intro past s a s' h _ hSome
  obtain ⟨r, w, hExact, hReady⟩ := h hSome
  exact ⟨r, w, hExact.env a, hReady⟩

/-- Asking the user transfers nothing. -/
theorem mute_of_prompt {o : Op} (hO : TcpServer.IsPromptOp o) : IsMute o := by
  cases o <;> first
    | exact hO.elim
    | trivial

/-- A single byte is sent whole or not at all. -/
theorem exact_byte (phase : Phase) (byte : UInt8) {past : List ConnLabel} (h : Exact r w past) (x : Bool) :
    ∃ w', Exact r w' (.did (.sendAll phase [byte]) x :: past) ∧ w <+: w' ∧ w'.length ≤ w.length + 1 := by
  cases x with
  | true => exact ⟨_, h.sent phase [byte], List.prefix_append .., by simp⟩
  | false =>
      refine ⟨w, ⟨h.1, fun w' hWire => ?_⟩, List.prefix_rfl, Nat.le_succ _⟩
      obtain ⟨part, rfl, -, hShort⟩ := h.cut hWire
      rw [List.length_eq_zero_iff.mp (Nat.lt_one_iff.mp (hShort (List.cons_ne_nil _ _))), List.append_nil]

/-- The pairing of the server sends a key and a decision, and is then ready
for Noise IK. -/
theorem pair_ready (d : UInt64) {past : List ConnLabel} {s : World} (h : Exact r w past) (hLen : w.length = 9)
    (hPaired : Paired r w) : Safe peerSystem okServer (c.pair na ip d) Prepared past s := by
  have hNone : ∀ past s, Safe peerSystem okServer (.ret none : ConnProg (Option (Key32 UInt8))) Prepared past s :=
    fun past s => Safe.ret (prepared_stable _) nofun
  have hSmall : ∀ r w : List UInt8, w.length ≤ 42 → Small r w := fun r w hLen => .inl (by omega)
  refine server_op trivial (hSmall r w (by omega)) h fun now past s h => ?_
  simp only [Prog.bind_def, Prog.ret_bind]
  have hKey : (w ++ c.ownStatic.publicKey.val).length = 41 := by
    rw [List.length_append, hLen, c.ownStatic.publicKey.property]
  refine server_exchange (by simp [hLen, c.ownStatic.publicKey.property]) h
    (fun past s h => quiet_op id h fun _ past s _ => hNone past s) fun k past s h => ?_
  refine Safe.bind ((exact_uses (TcpServer.prompt_uses na c ip d k) (fun _ => mute_of_prompt) h
    fun o past s hO h x => bounded_of_exact (h.mute (mute_of_prompt hO) x) (hSmall _ _ (by omega))).mono ?_)
  intro decision past s h
  have hLater : Paired (r ++ k.val) (w ++ c.ownStatic.publicKey.val) :=
    paired_mono (List.prefix_append ..) (List.prefix_append ..) hPaired
  refine .op (fun past _ => Exact (r ++ k.val) (w ++ c.ownStatic.publicKey.val) past) (exact_stable _ _) h
    (fun past _ h x => ?_) fun past _ x s h _ => ?_ <;>
    obtain ⟨w', h', hPrefix, hLe⟩ := exact_byte .decision
      (if decision = .approved then kPairingApproved else kPairingRejected) h x
  · exact bounded_of_exact h' (hSmall _ _ (by omega))
  · have hSmall := hSmall (r ++ k.val) w' (by omega)
    simp only [Prog.ret_bind]
    split
    · exact quiet_op id (bounded_of_exact h' hSmall) fun _ _ _ h => quiet_op id h fun _ past s _ => hNone past s
    · refine server_op trivial hSmall h' fun _ past s h => ?_
      refine Safe.ret (prepared_stable _) fun _ => ⟨_, _, h, .inr ⟨by omega, ?_⟩⟩
      exact paired_mono List.prefix_rfl hPrefix hLater

/-- The handshake of the server has a result only after its last
message is sent. -/
theorem handshake_answers (hAead : na.AeadContract) {past : List ConnLabel} {s : World} (h : Exact [] [] past) :
    Safe peerSystem okServer (c.handshake na ip) Answers past s := by
  refine server_op trivial (.inl (by simp)) h fun now past s h => ?_
  simp only [Prog.bind_def, Prog.ret_bind]
  have hId := (encodeDeviceId c.ownDeviceId).property
  refine server_exchange (by simp [hId]) h (fun past s h => drop_safe h) fun id past s h => ?_
  have hSent : ([] ++ (encodeDeviceId c.ownDeviceId).val).length = 8 := hId
  have hSmall : Small ([] ++ id.val) ([] ++ (encodeDeviceId c.ownDeviceId).val) := .inl (by omega)
  refine server_op trivial hSmall h fun stored past s h => ?_
  refine server_op trivial hSmall h fun now past s h => ?_
  simp only [Prog.ret_bind]
  refine server_exchange (by simp [hId]) h (fun past s h => drop_safe h) fun flag past s h => ?_
  have hPair : Paired ([] ++ id.val ++ flag.val)
      ([] ++ (encodeDeviceId c.ownDeviceId).val ++ [if stored.isSome then 0 else 1]) →
      Safe peerSystem okServer ((c.pair na ip (decodeDeviceId id)).bind (c.respondAfter na (decodeDeviceId id))) Answers
        past s := by
    intro hPaired
    refine TcpServer.pair_respond_safe (pair_ready _ h (by simp [hId]) hPaired) (fun past s _ => none_safe past s) ?_
    intro k past s hResult
    obtain ⟨r, w, h, hReady⟩ := hResult rfl
    exact respondIk_safe hAead _ k h hReady
  cases stored with
  | none => exact hPair (.inl (ninth hSent rfl))
  | some k =>
      cases hFlag : flag.only != 0 with
      | true =>
          simp only [hFlag]
          have hOnly : flag.val = [flag.only] := by
            rw [← flag.only_cons [], List.append_nil]
          exact hPair (.inr ⟨flag.only, ninth id.property hOnly, bne_iff_ne.mp hFlag⟩)
      | false =>
          simp only [hFlag]
          exact respondIk_safe hAead _ k h (.inl (by simp [hId]))

/-- For every client that it serves, the server has sent too little for a
connection until its key exchange has succeeded. -/
theorem serve_safe (hAead : na.AeadContract) {past : List ConnLabel} {s : World} (h : Exact [] [] past) :
    Safe peerSystem okServer (c.serve na ip) (fun _ _ _ => True) past s := by
  refine Safe.bind ((handshake_answers hAead h).mono fun result past s hResult => ?_)
  cases result with
  | none => exact Safe.ret (fun _ _ _ _ _ _ => trivial) trivial
  | some result =>
      refine (responded_safe _ (hResult rfl)).mono ?_
      exact fun _ _ _ _ => trivial

end Server

end NoCapKVM.Discovery.ConnectedAgreement
