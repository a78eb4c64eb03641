import NoCapKVM.Discovery.ConnectedAgreement

/-! What becomes of a connection once the server has done its part of the handshake,
and both sides of one connection side by side. -/
namespace NoCapKVM.Discovery.ConnectedAgreement

open Thread

variable {na : Sodium UInt8}

/-- A side has published its session. -/
def Published (past : List ConnLabel) : Prop :=
  ∃ info, .did (.assignStatus info) () ∈ past ∧ info.state = .connected

/-- The key that Noise IK has proved is not the one that the server trusts. -/
def Outdated (past : List ConnLabel) : Prop :=
  ∃ trusted proved, trusted ≠ proved ∧ .did (.remark (.ikStarts trusted)) () ∈ past ∧
    .did (.remark (.ikSucceeded proved)) () ∈ past

/-- The device was kicked, and no approval was read since the server
found it so. -/
def Refused (past : List ConnLabel) : Prop :=
  ∃ d later earlier, past = later ++ .did (.kickedCount d) true :: earlier ∧
    .did .loadDecision .approved ∉ later

theorem lasting_mem (l : ConnLabel) : Lasting (l ∈ ·) :=
  fun _ _ h => List.mem_cons_of_mem _ h

/-- A session that was published was published. -/
theorem lasting_published : Lasting Published := by
  rintro l past ⟨info, hMem, hUp⟩
  exact ⟨info, lasting_mem _ l past hMem, hUp⟩

theorem lasting_outdated : Lasting Outdated := by
  rintro l past ⟨trusted, proved, hNe, hStarts, hDone⟩
  exact ⟨trusted, proved, hNe, lasting_mem _ l past hStarts, lasting_mem _ l past hDone⟩

/-- A device that was refused stays so until an approval is read. -/
theorem refused_cons {l : ConnLabel} {past : List ConnLabel} (hL : l ≠ .did .loadDecision .approved)
    (h : Refused past) : Refused (l :: past) := by
  obtain ⟨d, later, earlier, rfl, hNone⟩ := h
  refine ⟨d, l :: later, earlier, rfl, fun hMem => ?_⟩
  rcases List.mem_cons.mp hMem with rfl | hLater
  · exact hL rfl
  · exact hNone hLater

section Server

variable {c : TcpServer} {ip : String} {α : Type} {past : List ConnLabel} {s : World}

/-- Anything may be done. -/
def okAny (_ : Op) (_ : List ConnLabel) (_ : World) : Prop := True

/-- A lasting fact is kept by every program. -/
theorem lasting_safe {P : List ConnLabel → Prop} (hP : Lasting P) (p : ConnProg α) (h : P past) :
    Safe peerSystem okAny p (fun _ past _ => P past) past s :=
  Safe.frame (fun past _ => P past) hP.stable (fun _ _ _ _ _ => trivial) (fun _ _ _ _ _ _ h _ => hP _ _ h)
    p.uses_all h

/-- Operations other than the last send of the handshake. -/
def IsEarly : Op → Prop
  | .sendAll .ikMsg2 _ => False
  | _ => True

def Unanswered (past : List ConnLabel) : Prop :=
  ¬ Responded past

/-- Nobody else sends the last message of the handshake. -/
theorem unanswered_stable : Stable peerSystem fun past _ => Unanswered past := by
  rintro _ s a s' h - ⟨data, hMem⟩
  rcases List.mem_cons.mp hMem with hEq | hOld
  · cases hEq
  · exact h ⟨data, hOld⟩

/-- Nor do the operations before it. -/
theorem unanswered_did {o : Op} (hO : IsEarly o) (x : Ans o) (h : Unanswered past) :
    Unanswered (.did o x :: past) := by
  rintro ⟨data, hMem⟩
  rcases List.mem_cons.mp hMem with hEq | hOld
  · cases hEq
    exact hO
  · exact h ⟨data, hOld⟩

theorem early_told {o : Op} {next : Ans o → ConnProg α} {Q : α → Assertion Op Ans Action World} (hO : IsEarly o)
    (h : Unanswered past)
    (hNext : ∀ x past s, Unanswered (.did o x :: past) → Safe peerSystem okAny (next x) Q (.did o x :: past) s) :
    Safe peerSystem okAny (.op o next) Q past s :=
  .op (fun past _ => Unanswered past) unanswered_stable h (fun _ _ _ => trivial)
    fun _ _ x s' h _ => hNext x _ s' (unanswered_did hO x h)

/-- An operation before the last send keeps the server unanswered. -/
theorem early_op {o : Op} {next : Ans o → ConnProg α} {Q : α → Assertion Op Ans Action World} (hO : IsEarly o)
    (h : Unanswered past) (hNext : ∀ x past s, Unanswered past → Safe peerSystem okAny (next x) Q past s) :
    Safe peerSystem okAny (.op o next) Q past s :=
  early_told hO h fun x _ s h => hNext x _ s h

/-- So does a program of such operations. -/
theorem early_uses {p : ConnProg α} (hUses : p.Uses IsEarly) (h : Unanswered past) :
    Safe peerSystem okAny p (fun _ past _ => Unanswered past) past s :=
  Safe.frame (fun past _ => Unanswered past) unanswered_stable (fun _ _ _ _ _ => trivial)
    (fun _ _ _ x _ hO h _ => unanswered_did hO x h) hUses h

/-- Without a result, a server that has done its part trusts another key. -/
def EndsOutdated (result : Option α) : Assertion Op Ans Action World :=
  fun past _ => result = none → Responded past → Outdated past

/-- A server that has not done its part owes no reason. -/
theorem Unanswered.ends (h : Unanswered past) (result : Option α) : EndsOutdated result past s :=
  fun _ hResponded => absurd hResponded h

/-- So a part of the handshake before the last send may end in any way. -/
theorem unanswered_ends {p : ConnProg (Option α)} (hUses : p.Uses IsEarly) (h : Unanswered past) :
    Safe peerSystem okAny p EndsOutdated past s :=
  (early_uses hUses h).mono fun result _ _ h => h.ends result

theorem some_ends (a : α) (past : List ConnLabel) (s : World) :
    Safe peerSystem okAny (.ret (some a) : ConnProg (Option α)) EndsOutdated past s := by
  have hEnds : ∀ past s, EndsOutdated (some a) past s := fun _ _ hNone => nomatch hNone
  exact Safe.ret (fun past _ _ s' _ _ => hEnds _ s') (hEnds past s)

/-- The pairing comes before the last send of the handshake. -/
theorem pair_early (d : UInt64) : (c.pair na ip d).Uses IsEarly := by
  refine ⟨trivial, fun now => ⟨trivial, fun sent => ?_⟩⟩
  cases sent with
  | false => exact TcpServer.drop_uses trivial
  | true =>
      refine ⟨trivial, fun key => ?_⟩
      cases key with
      | none => exact TcpServer.drop_uses trivial
      | some k =>
          have hPrompt := (TcpServer.prompt_uses na c ip d k).mono fun o hO => show IsEarly o by
            cases o <;> first
              | exact hO.elim
              | trivial
          refine hPrompt.bind fun decision => ⟨trivial, fun _ => ?_⟩
          simp only [Prog.ret_bind]
          split
          · exact TcpServer.reset_uses trivial trivial
          · exact ⟨trivial, fun _ => trivial⟩

/-- Once its message is sent, the key exchange of the server fails only where
it trusts another key than the one that was proved. -/
theorem respondIk_ends (d : UInt64) (k : Key32 UInt8) (h : Unanswered past) :
    Safe peerSystem okAny (c.respondIk na d k) EndsOutdated past s := by
  have hReset : ∀ past s, Unanswered past → Safe peerSystem okAny
      (TcpServer.reset : ConnProg (Option (UInt64 × IkResult UInt8))) EndsOutdated past s :=
    fun past s h => unanswered_ends (TcpServer.reset_uses trivial trivial) h
  let starts : ConnLabel := .did (.remark (.ikStarts k)) ()
  have hStable : Stable peerSystem fun past _ => Unanswered past ∧ starts ∈ past := fun past s a s' h hEnv =>
    ⟨unanswered_stable past s a s' h.1 hEnv, List.mem_cons_of_mem _ h.2⟩
  have hOp : ∀ {o : Op} {next : Ans o → ConnProg (Option (UInt64 × IkResult UInt8))} {past s}, IsEarly o →
      Unanswered past ∧ starts ∈ past → (∀ x past s, Unanswered past ∧ starts ∈ past →
        Safe peerSystem okAny (next x) EndsOutdated past s) →
      Safe peerSystem okAny (.op o next) EndsOutdated past s := fun hO h hNext =>
    .op _ hStable h (fun _ _ _ => trivial) fun _ _ x s' h _ =>
      hNext x _ s' ⟨unanswered_did hO x h.1, List.mem_cons_of_mem _ h.2⟩
  refine early_op trivial h fun now past s h => ?_
  refine early_told trivial h fun _ past s h => ?_
  have hStarted : Unanswered (starts :: past) ∧ starts ∈ starts :: past := ⟨h, List.mem_cons_self⟩
  simp only [Prog.bind_def, Prog.ret_bind, runIkResponder_eq, Prog.interp, ikOp, Prog.perform_bind, Prog.op_bind]
  refine hOp trivial hStarted fun msg1 past s h => ?_
  cases msg1.bind (ikReadMsg1 na c.ownStatic) with
  | none => exact hReset past s h.1
  | some hello =>
      refine hOp trivial h fun e past s h => ?_
      simp only [Prog.ret_bind]
      cases ikWriteMsg2 na hello e with
      | none => exact hReset past s h.1
      | some m =>
          obtain ⟨msg2, ik⟩ := m
          refine .op _ hStable h (fun _ _ _ => trivial) fun past s sent s' h _ => ?_
          cases sent with
          | false =>
              refine hReset _ s' ?_
              rintro ⟨data, hMem⟩
              refine h.1 ⟨data, ?_⟩
              rcases List.mem_cons.mp hMem with hEq | hOld
              · cases hEq
              · exact hOld
          | true =>
              refine .op (fun past _ => starts ∈ past) (lasting_mem starts).stable (List.mem_cons_of_mem _ h.2)
                (fun _ _ _ => trivial) fun past s _ s' h _ => ?_
              split
              · next hNe =>
                have hOutdated : Outdated (.did (.remark (.ikSucceeded ik.peerStatic)) () :: past) :=
                  ⟨k, ik.peerStatic, hNe, List.mem_cons_of_mem _ h, List.mem_cons_self⟩
                refine (lasting_safe lasting_outdated _ hOutdated).mono ?_
                exact fun _ _ _ h _ _ => h
              · exact some_ends _ _ s'

/-- The exchanges of the handshake come before its last send. -/
theorem exchange_early {phase : Phase} {data : List UInt8} {len : Nat} {deadline : Time}
    (hPhase : phase ≠ .ikMsg2) : (exchange phase data len deadline).Uses IsEarly := by
  refine ⟨?_, fun sent => ?_⟩
  · cases phase <;> first
      | exact absurd rfl hPhase
      | trivial
  · cases sent with
    | true => exact ⟨trivial, fun _ => trivial⟩
    | false => exact trivial

theorem early_exchange {phase : Phase} {data : List UInt8} {len : Nat} {deadline : Time}
    {next : Option (Bytes UInt8 len) → ConnProg α} {Q : α → Assertion Op Ans Action World}
    (hPhase : phase ≠ .ikMsg2) (h : Unanswered past)
    (hNext : ∀ x past s, Unanswered past → Safe peerSystem okAny (next x) Q past s) :
    Safe peerSystem okAny ((exchange phase data len deadline).bind next) Q past s :=
  Safe.bind ((early_uses (exchange_early hPhase) h).mono fun x past s h => hNext x past s h)

/-- So a handshake without a result has not done its part, or has found an
outdated key. -/
theorem handshake_ends (h : Unanswered past) :
    Safe peerSystem okAny (c.handshake na ip) EndsOutdated past s := by
  refine early_op trivial h fun now past s h => ?_
  simp only [Prog.bind_def, Prog.ret_bind]
  refine early_exchange (by decide) h fun id past s h => ?_
  cases id with
  | none => exact unanswered_ends (TcpServer.drop_uses trivial) h
  | some id =>
      refine early_op trivial h fun stored past s h => ?_
      refine early_op trivial h fun now past s h => ?_
      simp only [Prog.ret_bind]
      refine early_exchange (by decide) h fun flag past s h => ?_
      cases flag with
      | none => exact unanswered_ends (TcpServer.drop_uses trivial) h
      | some flag =>
          have hPair : Safe peerSystem okAny
              ((c.pair na ip (decodeDeviceId id)).bind (c.respondAfter na (decodeDeviceId id))) EndsOutdated past s :=
            TcpServer.pair_respond_safe (early_uses (pair_early _) h) (fun _ _ h => unanswered_ends (p := .ret none) trivial h)
              fun k _ _ h => respondIk_ends _ k h
          exact c.branch_cases na ip _ stored (flag.only != 0) (P := (Safe peerSystem okAny · EndsOutdated past s)) hPair
            fun k _ _ => respondIk_ends _ k h

/-! The gate for kicked devices. -/

/-- The refusal of a kicked device is a matter of this thread and its user. -/
theorem refused_stable : Stable peerSystem fun past _ => Refused past :=
  fun _ _ _ _ h _ => refused_cons nofun h

/-- Operations other than a look at the decision. -/
def IsUndecided : Op → Prop
  | .loadDecision => False
  | _ => True

/-- Operations that do not look at the decision leave it refused. -/
theorem refused_did {o : Op} (hO : IsUndecided o) (x : Ans o) (h : Refused past) : Refused (.did o x :: past) := by
  refine refused_cons (fun hEq => ?_) h
  cases hEq
  exact hO

theorem refused_op {o : Op} {next : Ans o → ConnProg α} {Q : α → Assertion Op Ans Action World}
    (hO : IsUndecided o) (h : Refused past)
    (hNext : ∀ x past s, Refused past → Safe peerSystem okAny (next x) Q past s) :
    Safe peerSystem okAny (.op o next) Q past s :=
  .op (fun past _ => Refused past) refused_stable h (fun _ _ _ => trivial)
    fun _ _ x s' h _ => hNext x _ s' (refused_did hO x h)

/-- Only an approval was an approval. -/
def Decides (decision : PairingDecision) : Assertion Op Ans Action World :=
  fun past _ => decision ≠ .approved → Refused past

/-- A wait without an approval leaves the device refused. -/
theorem awaitDecision_decides (approvalDeadline : Time) (h : Refused past) :
    Safe peerSystem okAny (TcpServer.awaitDecision approvalDeadline) Decides past s := by
  have hStable : ∀ decision, Stable peerSystem (Decides decision) :=
    fun _ _ _ _ _ h _ hNe => refused_cons nofun (h hNe)
  have hLoad : ∀ {decision past}, Refused past → decision ≠ .approved → Refused (.did .loadDecision decision :: past) :=
    fun h hNe => refused_cons (fun hEq => hNe (by cases hEq; rfl)) h
  apply TcpServer.awaitDecision_rule (C := IsUndecided) (W := fun past _ => Refused past) refused_stable hStable
    (fun hO h hNext => refused_op hO h hNext) trivial trivial fun _ => trivial
  · exact fun past s h _ => h
  · exact fun _ _ _ => trivial
  · exact fun past s s' h _ => hLoad h nofun
  · exact fun past s decision s' h _ => hLoad h
  · exact h

/-- A gate that is not passed has refused the device. -/
def EndsRefused (result : Option Unit) : Assertion Op Ans Action World :=
  fun past _ => result = none → Refused past

theorem endsRefused_stable (result : Option Unit) : Stable peerSystem (EndsRefused result) :=
  fun _ _ _ _ h _ hNone => refused_cons nofun (h hNone)

/-- So a gate that is not passed has refused a device that was kicked. -/
theorem reapprove_ends (d : UInt64) (ik : IkResult UInt8) (past : List ConnLabel) (s : World) :
    Safe peerSystem okAny (c.reapprove na ip d ik) EndsRefused past s := by
  have hTrue : Stable peerSystem fun _ _ => True := fun _ _ _ _ _ _ => trivial
  have hPassed : ∀ past s, Safe peerSystem okAny (.ret (some ()) : ConnProg (Option Unit)) EndsRefused past s :=
    fun past s => Safe.ret (endsRefused_stable _) nofun
  refine .op (fun _ _ => True) hTrue trivial (fun _ _ _ => trivial) fun past s kicked s' _ _ => ?_
  cases kicked with
  | false => exact hPassed _ s'
  | true =>
      have h : Refused (.did (.kickedCount d) true :: past) := ⟨d, [], past, rfl, List.not_mem_nil⟩
      simp only [Prog.bind_def]
      refine refused_op trivial h fun _ past s h => ?_
      refine refused_op trivial h fun _ past s h => ?_
      refine refused_op trivial h fun start past s h => ?_
      refine Safe.bind ((awaitDecision_decides _ h).mono fun decision past s h => ?_)
      split
      · next hNe =>
        refine refused_op trivial (h hNe) fun _ past s h => ?_
        refine refused_op trivial h fun _ past s h => ?_
        refine refused_op trivial h fun _ past s h => ?_
        exact Safe.ret (endsRefused_stable _) fun _ => h
      · refine .op_any (fun _ _ => trivial) (fun _ past s => hPassed past s) past s

/-- How a server's connection ends once its part of the handshake is done. -/
def Settled (_ : Unit) : Assertion Op Ans Action World :=
  fun past _ => Responded past → Published past ∨ Outdated past ∨ Refused past

theorem settled_stable : Stable peerSystem (Settled ()) := by
  intro past s a s' h _ hResponded
  have hOld : Responded past := by
    obtain ⟨data, hMem⟩ := hResponded
    refine ⟨data, ?_⟩
    rcases List.mem_cons.mp hMem with hEq | hOld
    · cases hEq
    · exact hOld
  rcases h hOld with hUp | hOutdated | hRefused
  · exact .inl (lasting_published _ past hUp)
  · exact .inr (.inl (lasting_outdated _ past hOutdated))
  · exact .inr (.inr (refused_cons nofun hRefused))

/-- A connection whose handshake is done ends published, or for one of these
two reasons. -/
theorem serve_settles (h : Unanswered past) : Safe peerSystem okAny (c.serve na ip) Settled past s := by
  refine Safe.bind ((handshake_ends h).mono fun result past s h => ?_)
  cases result with
  | none => exact Safe.ret settled_stable fun hResponded => .inr (.inl (h rfl hResponded))
  | some result =>
      obtain ⟨d, ik⟩ := result
      refine .op_any (fun _ _ => trivial) (fun _ past s => ?_) past s
      simp only [Prog.bind_def, Prog.ret_bind]
      refine Safe.bind ((reapprove_ends d ik past s).mono fun result past s h => ?_)
      cases result with
      | none => exact Safe.ret settled_stable fun _ => .inr (.inr (h rfl))
      | some _ =>
          refine .op (fun _ _ => True) (fun _ _ _ _ _ _ => trivial) trivial (fun _ _ _ => trivial)
            fun past s _ s' _ _ => ?_
          refine (lasting_safe lasting_published _ ⟨_, List.mem_cons_self, rfl⟩).mono ?_
          exact fun _ _ _ h _ => .inl h

end Server

abbrev Side (α : Type) := Config Op Ans Action World α

/-- All that a side has read was sent by the other. -/
def Hears (reader sender : List ConnLabel) : Prop :=
  ∃ w, Wire sender w ∧ heard reader <+: w

/-- One connection between a client and a server, with their steps
in any order. -/
inductive JointRun (na : Sodium UInt8) (client : TcpClient) (server : TcpServer) (ip : String) (w₁ w₂ : World) :
    Side AttemptOutcome → Side Unit → Prop where
  | start : JointRun na client server ip w₁ w₂ ⟨[], client.runOnce na, w₁⟩ ⟨[], server.serve na ip, w₂⟩
  | client {left : Side AttemptOutcome} {right : Side Unit} {new : List ConnLabel} {p : ConnProg AttemptOutcome}
      {s : World} (prior : JointRun na client server ip w₁ w₂ left right)
      (last : Step peerSystem left.prog left.state new p s) (hHears : Hears (new ++ left.past) right.past) :
      JointRun na client server ip w₁ w₂ ⟨new ++ left.past, p, s⟩ right
  | server {left : Side AttemptOutcome} {right : Side Unit} {new : List ConnLabel} {p : ConnProg Unit}
      {s : World} (prior : JointRun na client server ip w₁ w₂ left right)
      (last : Step peerSystem right.prog right.state new p s) (hHears : Hears (new ++ right.past) left.past) :
      JointRun na client server ip w₁ w₂ left ⟨new ++ right.past, p, s⟩

section Joint

variable {client : TcpClient} {server : TcpServer} {ip : String} {w₁ w₂ : World} {left : Side AttemptOutcome}
  {right : Side Unit}

/-- What the client does in a joint run is a run of the client alone. -/
theorem JointRun.client_run (h : JointRun na client server ip w₁ w₂ left right) :
    Run peerSystem (client.runOnce na) w₁ left.past left.prog left.state := by
  induction h with
  | start => exact .start
  | client _ last _ ih => exact ih.step last
  | server _ _ _ ih => exact ih

/-- What the server does in it is a run of the server alone. -/
theorem JointRun.server_run (h : JointRun na client server ip w₁ w₂ left right) :
    Run peerSystem (server.serve na ip) w₂ right.past right.prog right.state := by
  induction h with
  | start => exact .start
  | client _ _ _ ih => exact ih
  | server _ last _ ih => exact ih.step last

/-- What was read stays sent by the other side when that side goes on. -/
theorem Hears.later {reader sender : List ConnLabel} (h : Hears reader sender) (new : List ConnLabel) :
    Hears reader (new ++ sender) := by
  induction new with
  | nil => exact h
  | cons l new ih =>
      obtain ⟨w, hWire, hPrefix⟩ := ih
      obtain ⟨w', hWire', hMore⟩ := wire_exists l hWire
      exact ⟨w', hWire', hPrefix.trans hMore⟩

/-- In a joint run both sides have read only what the other one has sent. -/
theorem JointRun.hears (h : JointRun na client server ip w₁ w₂ left right) :
    Hears left.past right.past ∧ Hears right.past left.past := by
  induction h with
  | start => exact ⟨⟨[], .start, List.prefix_rfl⟩, ⟨[], .start, List.prefix_rfl⟩⟩
  | client _ _ hHears ih => exact ⟨hHears, ih.2.later _⟩
  | server _ _ hHears ih => exact ⟨ih.1.later _, hHears⟩

/-- A client that is connected has published nothing too early. -/
theorem run_complete {p : ConnProg AttemptOutcome} {past : List ConnLabel} {s : World}
    (hRun : Run peerSystem (client.runOnce na) w₁ past p s) (hUp : Published past) : Complete past := by
  have hSafe : Safe peerSystem okClient (client.runOnce na) (fun _ _ _ => True) [] w₁ := runOnce_safe exact_start
  refine Safe.invariant (fun past _ => Published past → Complete past) ?_ ?_ hSafe ?_ hRun hUp
  · rintro past _ a _ h - ⟨info, hMem, hState⟩
    rcases List.mem_cons.mp hMem with hEq | hOld
    · cases hEq
    · exact complete_cons _ (h ⟨info, hOld, hState⟩)
  · rintro o past _ r _ hOk h - ⟨info, hMem, hState⟩
    rcases List.mem_cons.mp hMem with hEq | hOld
    · cases hEq
      exact complete_cons _ (hOk info rfl hState)
    · exact complete_cons _ (h ⟨info, hOld, hState⟩)
  · rintro ⟨info, hMem, -⟩
    cases hMem

/-- Before its last message of the handshake, a server has sent too little for
a client. -/
theorem run_bounded (hAead : na.AeadContract) {p : ConnProg Unit} {past : List ConnLabel} {s : World}
    (hRun : Run peerSystem (server.serve na ip) w₂ past p s) : Bounded past := by
  have hSafe : Safe peerSystem okServer (server.serve na ip) (fun _ _ _ => True) [] w₂ :=
    serve_safe hAead exact_start
  refine Safe.invariant (fun past _ => Bounded past) bounded_stable ?_ hSafe ?_ hRun
  · exact fun o past _ r _ hOk _ _ => hOk r
  · refine bounded_of_exact exact_start (.inl ?_)
    decide

/-- A client hears a whole handshake only from a server that has
done its part. -/
theorem responded_of_complete {ours theirs : List ConnLabel} (hComplete : Complete ours) (hBounded : Bounded theirs)
    (hHears : Hears ours theirs) (hBack : Hears theirs ours) : Responded theirs := by
  rcases hBounded with hDone | hSmall
  · exact hDone
  obtain ⟨w, hWire, hPrefix⟩ := hHears
  obtain ⟨v, hSent, hHeard⟩ := hBack
  have hLe := hPrefix.length_le
  rcases hComplete with ⟨hLen, hZero, hOwn⟩ | hLen <;>
    rcases hSmall w hWire with hShort | ⟨hShort, hPaired⟩
  · omega
  · rcases hPaired with hFlag | ⟨b, hFlag, hB⟩
    · have hOne := (getElem?_mono hPrefix hZero).symm.trans hFlag
      cases hOne
    · have hSame := (hOwn v hSent).symm.trans (getElem?_mono hHeard hFlag)
      cases hSame
      exact absurd rfl hB
  · omega
  · omega

/-- When the client has published `Connected`, the server has done its part of
the handshake. The server then ends the connection unpublished only for
another key or after a kick. -/
theorem connected_responded (hAead : na.AeadContract) (hRun : JointRun na client server ip w₁ w₂ left right)
    (hUp : Published left.past) :
    Responded right.past ∧
      ∀ u, right.prog = .ret u → Published right.past ∨ Outdated right.past ∨ Refused right.past := by
  have hResponded := responded_of_complete (run_complete hRun.client_run hUp) (run_bounded hAead hRun.server_run)
    hRun.hears.1 hRun.hears.2
  refine ⟨hResponded, fun u hEnded => ?_⟩
  have hServer := hRun.server_run
  rw [hEnded] at hServer
  have hStart : Unanswered [] := fun ⟨_, hMem⟩ => absurd hMem List.not_mem_nil
  exact (serve_settles (s := w₂) hStart).result hServer hResponded

/-- What has been sent if nothing was sent in part. -/
def sentWhole : List ConnLabel → List UInt8
  | .did (.sendAll _ data) true :: past => sentWhole past ++ data
  | _ :: past => sentWhole past
  | [] => []

def IsWhole : ConnLabel → Bool
  | .did (.sendAll ..) false => false
  | _ => true

/-- Where nothing was sent in part, the bytes on the wire are those of the
whole sends. -/
theorem wire_sentWhole {past : List ConnLabel} (h : past.all IsWhole = true) : Wire past (sentWhole past) := by
  induction past with
  | nil => exact .start
  | cons l past ih =>
      rw [List.all_cons, Bool.and_eq_true] at h
      have hWire := ih h.2
      cases l with
      | env a => exact .env hWire
      | did o r =>
          cases o with
          | sendAll phase data =>
              cases r with
              | true => exact .sent hWire
              | false => cases h.1
          | channelSend msgType payload =>
              have hSealed : Wire (.did (.channelSend msgType payload) r :: past) (sentWhole past ++ []) := .sealed hWire
              rw [List.append_nil] at hSealed
              exact hSealed
          | _ => exact .silent id hWire

abbrev peerPlayer : Player peerSystem Choice :=
  connPlayer fun _ => True

def canHear (reader sender : List ConnLabel) : Bool :=
  sender.all IsWhole && (heard reader).isPrefixOf (sentWhole sender)

/-- The test compares the bytes that were read with those that were sent. -/
theorem hears_of_canHear {reader sender : List ConnLabel} (h : canHear reader sender = true) :
    Hears reader sender := by
  rw [canHear, Bool.and_eq_true] at h
  exact ⟨_, wire_sentWhole h.1, List.isPrefixOf_iff_prefix.mp h.2⟩

/-- A step of the client or one of the server. -/
def turn (pair : Side AttemptOutcome × Side Unit) :
    Cue Action Choice ⊕ Cue Action Choice → Option (Side AttemptOutcome × Side Unit)
  | .inl x => (peerPlayer.cue pair.1 x).bind fun left =>
      if canHear left.past pair.2.past then some (left, pair.2) else none
  | .inr x => (peerPlayer.cue pair.2 x).bind fun right =>
      if canHear right.past pair.1.past then some (pair.1, right) else none

def dialogue : List (Cue Action Choice ⊕ Cue Action Choice) → Side AttemptOutcome × Side Unit →
    Option (Side AttemptOutcome × Side Unit)
  | [], pair => some pair
  | x :: xs, pair => (turn pair x).bind (dialogue xs)

/-- A turn that is played is a step of a joint run. -/
theorem turn_joint {pair pair' : Side AttemptOutcome × Side Unit} {x : Cue Action Choice ⊕ Cue Action Choice}
    (h : turn pair x = some pair') (hRun : JointRun na client server ip w₁ w₂ pair.1 pair.2) :
    JointRun na client server ip w₁ w₂ pair'.1 pair'.2 := by
  cases x with
  | inl x =>
      obtain ⟨left, hCue, hHears⟩ := Option.bind_eq_some_iff.mp h
      rw [Option.ite_none_right_eq_some, Option.some.injEq] at hHears
      obtain ⟨hHears, rfl⟩ := hHears
      obtain ⟨new, hPast, hStep⟩ := Player.cue_step hCue
      obtain ⟨past, p, s⟩ := left
      obtain rfl : past = new ++ pair.1.past := hPast
      exact hRun.client hStep (hears_of_canHear hHears)
  | inr x =>
      obtain ⟨right, hCue, hHears⟩ := Option.bind_eq_some_iff.mp h
      rw [Option.ite_none_right_eq_some, Option.some.injEq] at hHears
      obtain ⟨hHears, rfl⟩ := hHears
      obtain ⟨new, hPast, hStep⟩ := Player.cue_step hCue
      obtain ⟨past, p, s⟩ := right
      obtain rfl : past = new ++ pair.2.past := hPast
      exact hRun.server hStep (hears_of_canHear hHears)

/-- So a dialogue is a joint run. -/
theorem dialogue_joint {xs : List (Cue Action Choice ⊕ Cue Action Choice)}
    {pair pair' : Side AttemptOutcome × Side Unit} (h : dialogue xs pair = some pair')
    (hRun : JointRun na client server ip w₁ w₂ pair.1 pair.2) :
    JointRun na client server ip w₁ w₂ pair'.1 pair'.2 := by
  induction xs generalizing pair with
  | nil =>
      obtain rfl := Option.some.inj h
      exact hRun
  | cons x xs ih =>
      obtain ⟨next, hTurn, hRest⟩ := Option.bind_eq_some_iff.mp h
      exact ih hRest (turn_joint hTurn hRun)

end Joint

section Instance

/-- A Slave that knows the Master. -/
def slaveClient : TcpClient := ⟨1, plainKeypair 1, "192.168.0.2", 47000, seconds 10⟩

/-- The Master, which holds an outdated key for the Slave. -/
def masterServer : TcpServer := ⟨2, plainKeypair 2, 47001⟩

def knows (d : UInt64) (k : Key32 UInt8) : KnownPeers :=
  let peers d' := if d' = d then some k else none
  ⟨peers, peers⟩

/-- The messages of Noise IK between the two. -/
def ikMessages : List UInt8 × List UInt8 :=
  ((do
    let (msg1, _) ← ikWriteMsg1 plainSodium (plainKeypair 1) (plainKeypair 2).publicKey (plainKeypair 3)
    let hello ← ikReadMsg1 plainSodium (plainKeypair 2) (fit 96 msg1)
    let (msg2, _) ← ikWriteMsg2 plainSodium hello (plainKeypair 4)
    return (msg1, msg2)) : Option (List UInt8 × List UInt8)).getD ([], [])

def slaveWorld : World :=
  .fresh (knows 2 (plainKeypair 2).publicKey) ((encodeDeviceId 2).val ++ 0 :: ikMessages.2)

def masterWorld : World :=
  .fresh (knows 1 (plainKeypair 9).publicKey) ((encodeDeviceId 1).val ++ 0 :: ikMessages.1)

def clientTurns (xs : List Choice) : List (Cue Action Choice ⊕ Cue Action Choice) :=
  xs.map fun x => .inl (.answer x)

def serverTurns (xs : List Choice) : List (Cue Action Choice ⊕ Cue Action Choice) :=
  xs.map fun x => .inr (.answer x)

/-- Both identify themselves, then the flags, then Noise IK. -/
def outdatedTurns : List (Cue Action Choice ⊕ Cue Action Choice) :=
  clientTurns (List.replicate 5 .usual) ++ serverTurns (List.replicate 6 .usual) ++
    clientTurns (List.replicate 7 .usual ++ [.keypair (plainKeypair 3), .usual]) ++
    serverTurns (List.replicate 4 .usual ++ .keypair (plainKeypair 4) :: List.replicate 4 .usual) ++
    clientTurns (List.replicate 2 .usual)

def publishes : ConnLabel → Bool
  | .did (.assignStatus info) _ => info.state == .connected
  | _ => false

theorem published_iff {past : List ConnLabel} : Published past ↔ past.any publishes = true := by
  rw [List.any_eq_true]
  refine ⟨fun ⟨info, hMem, hUp⟩ => ⟨_, hMem, beq_iff_eq.mpr hUp⟩, fun ⟨l, hMem, hPublishes⟩ => ?_⟩
  cases l with
  | env a => cases hPublishes
  | did o r =>
      cases o with
      | assignStatus info => exact ⟨info, hMem, beq_iff_eq.mp hPublishes⟩
      | _ => cases hPublishes

/-- The client is connected, and the server has ended the connection
unpublished. -/
theorem exists_outdated : ∃ left right u,
    JointRun plainSodium slaveClient masterServer "192.168.0.3" slaveWorld masterWorld left right ∧
      Published left.past ∧ right.prog = .ret u ∧ ¬ Published right.past := by
  have hPlay : (dialogue outdatedTurns (⟨[], slaveClient.runOnce plainSodium, slaveWorld⟩,
      ⟨[], masterServer.serve plainSodium "192.168.0.3", masterWorld⟩)).any (fun pair =>
        pair.1.past.any publishes && pair.2.prog.ended && !pair.2.past.any publishes) = true := by
    decide +kernel
  obtain ⟨⟨left, right⟩, hDialogue, hEnd⟩ := (Option.any_eq_true _ _).mp hPlay
  simp only [Bool.and_eq_true, Bool.not_eq_true'] at hEnd
  obtain ⟨u, hEnded⟩ := Prog.eq_ret_of_ended hEnd.1.2
  refine ⟨left, right, u, dialogue_joint hDialogue .start, published_iff.mpr hEnd.1.1, hEnded, fun hUp => ?_⟩
  rw [published_iff, hEnd.2] at hUp
  cases hUp

/-- The Master has done its part, but trusts another key. -/
theorem connected_responded_outdated : ∃ left right u,
    JointRun plainSodium slaveClient masterServer "192.168.0.3" slaveWorld masterWorld left right ∧
      right.prog = .ret u ∧ Responded right.past ∧ (Outdated right.past ∨ Refused right.past) := by
  obtain ⟨left, right, u, hRun, hUp, hEnded, hOther⟩ := exists_outdated
  obtain ⟨hResponded, hEnds⟩ := connected_responded plainSodium_contract.toAeadContract hRun hUp
  exact ⟨left, right, u, hRun, hEnded, hResponded, (hEnds u hEnded).resolve_left hOther⟩

/-- A client that publishes `Connected` may never be accepted. -/
theorem connected_unaccepted : ¬ ∀ (na : Sodium UInt8) (client : TcpClient) (server : TcpServer) (ip : String)
    (w₁ w₂ : World) (left : Side AttemptOutcome) (right : Side Unit),
    JointRun na client server ip w₁ w₂ left right → Published left.past → (∃ u, right.prog = .ret u) →
      Published right.past := by
  intro hAll
  obtain ⟨left, right, u, hRun, hUp, hEnded, hOther⟩ := exists_outdated
  exact hOther (hAll _ _ _ _ _ _ left right hRun hUp ⟨u, hEnded⟩)

end Instance

end NoCapKVM.Discovery.ConnectedAgreement
