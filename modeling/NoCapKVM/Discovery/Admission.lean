import NoCapKVM.Discovery.Paths
import NoCapKVM.Discovery.NoiseIkAgreement
import NoCapKVM.Discovery.PlainSodium

/-! Whom the Master lets in. -/
namespace NoCapKVM.Discovery.Admission

open Thread TcpServer

def isAccept : ConnLabel → Bool
  | .did .accept (some _) => true
  | _ => false

/-- What happened since the current connection was accepted, newest
event first. -/
def sinceAccept (past : List ConnLabel) : List ConnLabel :=
  past.takeWhile fun l => !isAccept l

section

variable (na : Sodium UInt8) (c : TcpServer)

/-- A pairing request for the device `d` with the key `k` was published
between the events `older` and the events `newer`. -/
def PromptedFor (d : UInt64) (k : Key32 UInt8) (events newer older : List ConnLabel) : Prop :=
  ∃ info, events = newer ++ .did (.assignStatus info) () :: older ∧ info.state = .pairing ∧
    info.peerDeviceId = d ∧
    info.pairingFingerprint = computeFingerprint na k c.ownStatic.publicKey

/-- Such a request was answered by the user, and the answer was read. `F`
tells what had happened before the request. -/
def Approved (F : List ConnLabel → Prop) (d : UInt64) (k : Key32 UInt8)
    (events : List ConnLabel) : Prop :=
  ∃ newer older, PromptedFor na c d k events newer older ∧ F older ∧
    .env .approvePairing ∈ newer ∧ .did .loadDecision .approved ∈ newer

/-- The peer has presented `k` as its public key. -/
def Presented (k : Key32 UInt8) (events : List ConnLabel) : Prop :=
  ∃ deadline, .did (.recvAll .rawPubkey 32 deadline) (some k) ∈ events

/-- `k` was stored for `d` when it was looked up, or the user has
approved it. -/
def Trusted (d : UInt64) (k : Key32 UInt8) (events : List ConnLabel) : Prop :=
  .did (.getPubkey d) (some k) ∈ events ∨ Approved na c (Presented k) d k events

/-- What must have happened on a connection before `d` is published as
connected. -/
def Admitted (d : UInt64) (past : List ConnLabel) (s : World) : Prop :=
  ∃ k, .did (.remark (.ikSucceeded k)) () ∈ sinceAccept past ∧ Trusted na c d k (sinceAccept past) ∧
    (s.kickedAtAccept d = true → Approved na c (fun _ => True) d k (sinceAccept past))

/-- `Connected` is published for admitted devices only. -/
def ok : Op → Assertion Op Ans Action World
  | .assignStatus info, past, s => info.state = .connected → Admitted na c info.peerDeviceId past s
  | _, _, _ => True

end

/-- All calls of the UI thread are allowed. -/
abbrev sys : System Op Ans Action World := connSystem fun _ => True

variable {na : Sodium UInt8} {c : TcpServer} {α : Type}

/-- A property of what happened that later events do not undo. -/
def Lasting (F : List ConnLabel → Prop) : Prop :=
  ∀ l events, F events → F (l :: events)

/-- What has happened on a connection is not undone. -/
theorem lasting_mem (l : ConnLabel) : Lasting (l ∈ ·) :=
  fun _ _ h => List.mem_cons_of_mem _ h

theorem lasting_presented (k : Key32 UInt8) : Lasting (Presented k) :=
  fun _ _ ⟨deadline, h⟩ => ⟨deadline, List.mem_cons_of_mem _ h⟩

/-- An approval that was read stays one. -/
theorem lasting_approved (F : List ConnLabel → Prop) (d : UInt64) (k : Key32 UInt8) :
    Lasting (Approved na c F d k) := by
  rintro l events ⟨newer, older, ⟨info, rfl, hInfo⟩, hF, hApprove, hRead⟩
  exact ⟨l :: newer, older, ⟨info, rfl, hInfo⟩, hF, List.mem_cons_of_mem _ hApprove,
    List.mem_cons_of_mem _ hRead⟩

/-- What had happened before a request can be forgotten. -/
theorem Approved.weaken {F : List ConnLabel → Prop} {d : UInt64} {k : Key32 UInt8}
    {events : List ConnLabel} (h : Approved na c F d k events) :
    Approved na c (fun _ => True) d k events := by
  obtain ⟨newer, older, hPrompted, -, hAnswered⟩ := h
  exact ⟨newer, older, hPrompted, trivial, hAnswered⟩

/-- A key that is trusted on a connection stays so until its end. -/
theorem lasting_trusted (d : UInt64) (k : Key32 UInt8) : Lasting (Trusted na c d k) := by
  rintro l events (h | h)
  · exact Or.inl (List.mem_cons_of_mem _ h)
  · exact Or.inr (lasting_approved _ d k l events h)

/-- `F` has happened on the current connection, before its kick gate. -/
def In (F : List ConnLabel → Prop) : Assertion Op Ans Action World :=
  fun past s => F (sinceAccept past) ∧ s.kicked = s.kickedAtAccept

/-- The calls of the other threads belong to the current connection. -/
theorem sinceAccept_env (a : Action) (past : List ConnLabel) :
    sinceAccept (.env a :: past) = .env a :: sinceAccept past := by
  simp [sinceAccept, isAccept]

/-- What has happened on a connection does not depend on what the other
threads do next. -/
theorem in_stable {F : List ConnLabel → Prop} (hF : Lasting F) : Stable sys (In F) := by
  rintro past s a s' ⟨hPast, hKicked⟩ ⟨-, rfl⟩
  rw [In, sinceAccept_env]
  refine ⟨hF _ _ hPast, ?_⟩
  cases a <;> exact hKicked

/-- Operations that neither accept a connection nor touch the
kicked devices. -/
def IsPlain : Op → Prop
  | .accept | .kickedInsert _ | .kickedErase _ => False
  | .assignStatus info => info.state ≠ .connected
  | _ => True

/-- Until the next accept, the events of the thread belong to the current
connection. -/
theorem sinceAccept_did {o : Op} (hO : IsPlain o) (r : Ans o) (past : List ConnLabel) :
    sinceAccept (.did o r :: past) = .did o r :: sinceAccept past := by
  cases o <;> simp_all [sinceAccept, isAccept, IsPlain]

/-- Plain operations leave the kicked devices as they were at the accept. -/
theorem exec_kicked {o : Op} (hO : IsPlain o) {s s' : World} {r : Ans o} (h : World.exec o s r s') :
    s'.kicked = s.kicked ∧ s'.kickedAtAccept = s.kickedAtAccept := by
  obtain ⟨_, _, _, hKept, rfl⟩ := World.exec_writes h
  cases o with
  | accept => cases hO
  | kickedInsert => cases hO
  | kickedErase => cases hO
  | _ => exact ⟨rfl, hKept nofun⟩

/-- So after a plain operation a lasting fact about the connection still
holds, and its kick gate is still ahead. -/
theorem in_did {F : List ConnLabel → Prop} (hF : Lasting F) {o : Op} (hO : IsPlain o)
    {past : List ConnLabel} {s s' : World} {r : Ans o} (h : In F past s) (hExec : sys.exec o s r s') :
    In F (.did o r :: past) s' := by
  obtain ⟨hKicked, hAtAccept⟩ := exec_kicked hO hExec
  rw [In, sinceAccept_did hO, hKicked, hAtAccept]
  exact ⟨hF _ _ h.1, h.2⟩

/-- Only the publication of a connection has a condition. -/
theorem ok_of_plain {o : Op} (hO : IsPlain o) (past : List ConnLabel) (s : World) :
    ok na c o past s := by
  cases o <;> simp_all [ok, IsPlain]

/-- One plain operation: its event joins the ones that happened. -/
theorem plain_safe {F : List ConnLabel → Prop} (hF : Lasting F) {o : Op} {next : Ans o → ConnProg α}
    {Q : α → Assertion Op Ans Action World} {past : List ConnLabel} {s : World} (hO : IsPlain o)
    (h : In F past s)
    (hNext : ∀ r past s, In F past s → .did o r ∈ sinceAccept past →
      Safe sys (ok na c) (next r) Q past s) :
    Safe sys (ok na c) (.op o next) Q past s := by
  refine .op (In F) (in_stable hF) h (fun past s _ => ok_of_plain hO past s) ?_
  intro past s r s' h hExec
  refine hNext r _ _ (in_did hF hO h hExec) ?_
  rw [sinceAccept_did hO]
  exact List.mem_cons_self

/-- Nothing more is published as connected. -/
theorem plain_uses_safe {p : ConnProg α} (hP : p.Uses fun o => ∀ past s, ok na c o past s)
    (past : List ConnLabel) (s : World) : Safe sys (ok na c) p (fun _ _ _ => True) past s :=
  Safe.frame (fun _ _ => True) (fun _ _ _ _ _ _ => trivial) (fun _ past s hC _ => hC past s)
    (fun _ _ _ _ _ _ _ _ => trivial) hP trivial

section Prompt

variable (na c) (F : List ConnLabel → Prop) (d : UInt64) (k : Key32 UInt8)

def Asked (events : List ConnLabel) : Prop :=
  ∃ newer older, PromptedFor na c d k events newer older ∧ F older

def Answered (events : List ConnLabel) : Prop :=
  ∃ newer older, PromptedFor na c d k events newer older ∧ F older ∧ .env .approvePairing ∈ newer

/-- An approval that is found while waiting was given after the request. -/
def Waiting : Assertion Op Ans Action World :=
  fun past s => In F past s ∧ Asked na c F d k (sinceAccept past) ∧
    (s.decision = .approved → Answered na c F d k (sinceAccept past))

variable {na c F d k}

theorem lasting_asked : Lasting (Asked na c F d k) := by
  rintro l events ⟨newer, older, ⟨info, rfl, hInfo⟩, hF⟩
  exact ⟨l :: newer, older, ⟨info, rfl, hInfo⟩, hF⟩

theorem lasting_answered : Lasting (Answered na c F d k) := by
  rintro l events ⟨newer, older, ⟨info, rfl, hInfo⟩, hF, hApprove⟩
  exact ⟨l :: newer, older, ⟨info, rfl, hInfo⟩, hF, List.mem_cons_of_mem _ hApprove⟩

/-- An answer that the user gives during the wait answers the request that is
published. -/
theorem waiting_stable (hF : Lasting F) : Stable sys (Waiting na c F d k) := by
  rintro past s a s' ⟨hIn, hAsked, hAnswered⟩ hEnv
  refine ⟨in_stable hF past s a s' hIn hEnv, ?_, ?_⟩
  · rw [sinceAccept_env]
    exact lasting_asked _ _ hAsked
  · obtain ⟨-, rfl⟩ := hEnv
    rw [sinceAccept_env]
    intro hDecision
    cases a with
    | approvePairing =>
        obtain ⟨newer, older, ⟨info, hEvents, hInfo⟩, hOlder⟩ := hAsked
        exact ⟨.env .approvePairing :: newer, older, ⟨info, by rw [hEvents]; rfl, hInfo⟩, hOlder,
          List.mem_cons_self⟩
    | rejectPairing => cases hDecision
    | _ => exact lasting_answered _ _ (hAnswered hDecision)

/-- The operations of the wait. -/
def IsPollOp : Op → Prop
  | .loadRunning | .now | .loadDecision | .sleepFor _ => True
  | _ => False

/-- The operations of the wait leave the request as it is. -/
theorem waiting_did (hF : Lasting F) {o : Op} (hO : IsPollOp o) {past : List ConnLabel}
    {s s' : World} {r : Ans o} (h : Waiting na c F d k past s) (hExec : sys.exec o s r s') :
    Waiting na c F d k (.did o r :: past) s' := by
  have hPlain : IsPlain o := by cases o <;> simp_all [IsPollOp, IsPlain]
  have hDecision : s'.decision = s.decision := by
    obtain ⟨_, _, _, -, rfl⟩ := World.exec_writes hExec
    cases o <;> first
      | exact hO.elim
      | rfl
  refine ⟨in_did hF hPlain h.1 hExec, ?_, ?_⟩
  · rw [sinceAccept_did hPlain]
    exact lasting_asked _ _ h.2.1
  · rw [sinceAccept_did hPlain, hDecision]
    exact fun hApproved => lasting_answered _ _ (h.2.2 hApproved)

/-- So the wait may go on with each of them. -/
theorem poll_safe (hF : Lasting F) {o : Op} {next : Ans o → ConnProg α}
    {Q : α → Assertion Op Ans Action World} {past : List ConnLabel} {s : World} (hO : IsPollOp o)
    (h : Waiting na c F d k past s)
    (hNext : ∀ r past s, Waiting na c F d k past s → Safe sys (ok na c) (next r) Q past s) :
    Safe sys (ok na c) (.op o next) Q past s := by
  refine .op (Waiting na c F d k) (waiting_stable hF) h (fun past s _ => ok_of_plain ?_ past s) ?_
  · cases o <;> simp_all [IsPollOp, IsPlain]
  · intro past s r s' h hExec
    exact hNext r _ _ (waiting_did hF hO h hExec)

/-- What a prompt guarantees when it ends. -/
def Decided (na : Sodium UInt8) (c : TcpServer) (F : List ConnLabel → Prop) (d : UInt64)
    (k : Key32 UInt8) (decision : PairingDecision) : Assertion Op Ans Action World :=
  fun past s => In F past s ∧ (decision = .approved → Approved na c F d k (sinceAccept past))

/-- What a prompt guarantees stays true. -/
theorem decided_stable (hF : Lasting F) (decision : PairingDecision) :
    Stable sys (Decided na c F d k decision) := by
  rintro past s a s' ⟨hIn, hApproved⟩ hEnv
  refine ⟨in_stable hF past s a s' hIn hEnv, fun hDecision => ?_⟩
  rw [sinceAccept_env]
  exact lasting_approved _ _ _ _ _ (hApproved hDecision)

/-- Publishing a request. -/
theorem asked_did (hF : Lasting F) {info : ConnectionInfo} (hState : info.state = .pairing)
    (hPeer : info.peerDeviceId = d)
    (hShown : info.pairingFingerprint = computeFingerprint na k c.ownStatic.publicKey)
    {past : List ConnLabel} {s s' : World} (h : In F past s)
    (hExec : sys.exec (.assignStatus info) s () s') :
    In (fun events => F events ∧ Asked na c F d k events) (.did (.assignStatus info) () :: past) s' := by
  have hPlain : IsPlain (.assignStatus info) := by simp [IsPlain, hState]
  obtain ⟨hIn, hKicked⟩ := in_did hF hPlain h hExec
  refine ⟨⟨hIn, [], sinceAccept past, ⟨info, ?_, hState, hPeer, hShown⟩, h.1⟩, hKicked⟩
  exact sinceAccept_did hPlain () past

/-- Forgetting earlier decisions. -/
theorem waiting_start (hF : Lasting F) {past : List ConnLabel} {s s' : World}
    (h : In (fun events => F events ∧ Asked na c F d k events) past s)
    (hExec : sys.exec (.storeDecision .pending) s () s') :
    Waiting na c F d k (.did (.storeDecision .pending) () :: past) s' := by
  have hBoth : Lasting fun events => F events ∧ Asked na c F d k events :=
    fun l events h => ⟨hF l events h.1, lasting_asked l events h.2⟩
  have hIn := in_did (o := .storeDecision .pending) hBoth trivial h hExec
  refine ⟨⟨hIn.1.1, hIn.2⟩, hIn.1.2, fun hDecision => ?_⟩
  obtain rfl := hExec
  cases hDecision

/-- Reading the decision. -/
theorem decided_load (hF : Lasting F) {past : List ConnLabel} {s s' : World} {r : PairingDecision}
    (h : Waiting na c F d k past s) (hExec : sys.exec .loadDecision s r s') :
    Decided na c F d k r (.did .loadDecision r :: past) s' := by
  refine ⟨in_did (o := .loadDecision) hF trivial h.1 hExec, ?_⟩
  rintro rfl
  obtain ⟨newer, older, ⟨info, hEvents, hInfo⟩, hOlder, hApprove⟩ := h.2.2 hExec.1.symm
  refine ⟨.did .loadDecision .approved :: newer, older, ⟨info, ?_, hInfo⟩, hOlder,
    List.mem_cons_of_mem _ hApprove, List.mem_cons_self⟩
  rw [sinceAccept_did (o := .loadDecision) trivial, hEvents]
  rfl

/-- A wait without an answer guarantees nothing. -/
theorem decided_pending {past : List ConnLabel} {s : World} (h : Waiting na c F d k past s) :
    Decided na c F d k .pending past s :=
  ⟨h.1, fun hDecision => by cases hDecision⟩

/-- A wait ends with an approval only if the user has answered the request. -/
theorem awaitDecision_safe (hF : Lasting F) (approvalDeadline : Time) {past : List ConnLabel}
    {s : World} (h : Waiting na c F d k past s) :
    Safe sys (ok na c) (awaitDecision approvalDeadline) (Decided na c F d k) past s := by
  apply awaitDecision_rule (C := IsPollOp) (waiting_stable hF) (decided_stable hF)
    (fun hO h hNext => poll_safe hF hO h hNext) trivial trivial fun _ => trivial
  · exact fun past s h => decided_pending h
  · exact fun _ _ _ => trivial
  · exact fun past s s' h hExec => waiting_did hF (o := .loadDecision) trivial h hExec
  · exact fun past s decision s' h hExec => decided_load hF h hExec
  · exact h

/-- A prompt that ends with an approval was approved by the user after it was
published. -/
theorem prompt_safe (hF : Lasting F) {ip : String} {past : List ConnLabel} {s : World}
    (h : In F past s) :
    Safe sys (ok na c) (prompt na c ip d k) (Decided na c F d k) past s := by
  have hBoth : Lasting fun events => F events ∧ Asked na c F d k events :=
    fun l events h => ⟨hF l events h.1, lasting_asked l events h.2⟩
  refine .op (In F) (in_stable hF) h (fun past s _ => ok_of_plain (by simp [IsPlain]) past s) ?_
  intro past s _ s' h hExec
  refine .op _ (in_stable hBoth) (asked_did hF rfl rfl rfl h hExec) (fun past s _ => trivial) ?_
  intro past s _ s' h hExec
  exact poll_safe hF trivial (waiting_start hF h hExec) fun start past s h =>
    awaitDecision_safe hF _ h

end Prompt

/-- Operations after which no device is published as connected. -/
def IsHarmless : Op → Prop
  | .assignStatus info => info.state ≠ .connected
  | _ => True

/-- A program that publishes no connection is safe from any state. -/
theorem harmless_safe {p : ConnProg α} (hP : p.Uses IsHarmless) (past : List ConnLabel) (s : World) :
    Safe sys (ok na c) p (fun _ _ _ => True) past s := by
  refine Safe.frame (fun _ _ => True) (fun _ _ _ _ _ _ => trivial) ?_
    (fun _ _ _ _ _ _ _ _ => trivial) hP trivial
  intro o past s hO _
  cases o <;> simp_all [ok, IsHarmless]

theorem drop_safe {Q : Option α → Assertion Op Ans Action World} (hQ : ∀ past s, Q none past s)
    (past : List ConnLabel) (s : World) : Safe sys (ok na c) drop Q past s := by
  refine Safe.op_any (fun _ _ => trivial) (fun _ past s => ?_) past s
  exact .ret (fun _ _ _ _ _ _ => hQ _ _) (hQ _ _)

theorem reset_safe {Q : Option α → Assertion Op Ans Action World} (hQ : ∀ past s, Q none past s)
    (past : List ConnLabel) (s : World) : Safe sys (ok na c) reset Q past s := by
  refine Safe.op_any (fun _ _ => trivial) (fun _ past s => ?_) past s
  refine Safe.op_any (fun _ _ hState => by cases hState) (fun _ past s => ?_) past s
  exact .ret (fun _ _ _ _ _ _ => hQ _ _) (hQ _ _)

/-- A message is sent and one is received. -/
theorem exchange_safe {F : List ConnLabel → Prop} (hF : Lasting F) {phase : Phase}
    {sent : List UInt8} {len : Nat} {deadline : Time}
    {next : Option (Bytes UInt8 len) → ConnProg α} {Q : α → Assertion Op Ans Action World}
    {past : List ConnLabel} {s : World} (h : In F past s)
    (hNone : ∀ past s, Safe sys (ok na c) (next none) Q past s)
    (hSome : ∀ data past s, In F past s →
      .did (.recvAll phase len deadline) (some data) ∈ sinceAccept past →
      Safe sys (ok na c) (next (some data)) Q past s) :
    Safe sys (ok na c) ((exchange phase sent len deadline).bind next) Q past s := by
  refine plain_safe hF trivial h fun sent past s h _ => ?_
  cases sent with
  | false => exact hNone past s
  | true =>
      refine plain_safe hF trivial h fun received past s h hEvent => ?_
      cases received with
      | none => exact hNone past s
      | some data => exact hSome data past s h hEvent

/-- The peer has proved that it holds `k`, and `k` is trusted for `d`. -/
def Identified (na : Sodium UInt8) (c : TcpServer) (d : UInt64) (k : Key32 UInt8)
    (events : List ConnLabel) : Prop :=
  .did (.remark (.ikSucceeded k)) () ∈ events ∧ Trusted na c d k events

theorem lasting_identified (d : UInt64) (k : Key32 UInt8) : Lasting (Identified na c d k) :=
  fun l events h => ⟨lasting_mem _ l events h.1, lasting_trusted d k l events h.2⟩

/-- What a handshake guarantees. -/
def Handshaken (na : Sodium UInt8) (c : TcpServer) :
    Option (UInt64 × IkResult UInt8) → Assertion Op Ans Action World
  | none => fun _ _ => True
  | some (d, ik) => In (Identified na c d ik.peerStatic)

theorem handshaken_stable (result : Option (UInt64 × IkResult UInt8)) :
    Stable sys (Handshaken na c result) := by
  cases result with
  | none => exact fun _ _ _ _ _ _ => trivial
  | some result => exact in_stable (lasting_identified _ _)

/-- The transfers of a handshake touch no kicked device. -/
theorem plain_of_transfer {o : Op} (h : IsTransfer o) : IsPlain o := by
  cases o <;> simp_all [IsTransfer, IsPlain]

/-- A key exchange that succeeds has identified the peer by the key that is
trusted. -/
theorem respondIk_safe {d : UInt64} {k : Key32 UInt8} {past : List ConnLabel} {s : World}
    (h : In (Trusted na c d k) past s) :
    Safe sys (ok na c) (respondIk na c d k) (Handshaken na c) past s := by
  refine plain_safe (lasting_trusted d k) trivial h fun now past s h _ => ?_
  refine plain_safe (lasting_trusted d k) trivial h fun _ past s h _ => ?_
  simp only [Prog.bind_def, Prog.ret_bind]
  refine Safe.bind ((Safe.frame (In (Trusted na c d k)) (in_stable (lasting_trusted d k))
    (C := IsTransfer) (fun o past s hO _ => ok_of_plain (plain_of_transfer hO) past s)
    (fun o past s r s' hO h hExec => in_did (lasting_trusted d k) (plain_of_transfer hO) h hExec)
    (interp_ikOp_uses _ _ _ _) h).mono ?_)
  intro result past s h
  cases result with
  | none => exact reset_safe (fun _ _ => trivial) past s
  | some ik =>
      refine plain_safe (lasting_trusted d k) trivial h fun _ past s h hEvent => ?_
      by_cases hKey : k = ik.peerStatic
      · subst hKey
        simp only [Prog.ret_bind, ne_eq, not_true_eq_false, if_false]
        exact Safe.ret (a := some (d, ik)) (handshaken_stable _) ⟨⟨hEvent, h.1⟩, h.2⟩
      · simp only [Prog.ret_bind, ne_eq, hKey, not_false_eq_true, if_true]
        exact reset_safe (fun _ _ => trivial) past s

def Paired (na : Sodium UInt8) (c : TcpServer) (d : UInt64) :
    Option (Key32 UInt8) → Assertion Op Ans Action World
  | none => fun _ _ => True
  | some k => In (Trusted na c d k)

theorem paired_stable (d : UInt64) (result : Option (Key32 UInt8)) :
    Stable sys (Paired na c d result) := by
  cases result with
  | none => exact fun _ _ _ _ _ _ => trivial
  | some k => exact in_stable (lasting_trusted d k)

/-- A pairing that succeeds trusts the presented key, because the user has
approved that very key. -/
theorem pair_safe {ip : String} {d : UInt64} {F : List ConnLabel → Prop} (hF : Lasting F)
    {past : List ConnLabel} {s : World} (h : In F past s) :
    Safe sys (ok na c) (pair na c ip d) (Paired na c d) past s := by
  refine plain_safe hF trivial h fun now past s h _ => ?_
  simp only [Prog.bind_def, Prog.ret_bind]
  refine exchange_safe hF h (drop_safe fun _ _ => trivial) fun k past s h hEvent => ?_
  have hPresented : In (Presented k) past s := ⟨⟨_, hEvent⟩, h.2⟩
  refine Safe.bind ((prompt_safe (lasting_presented k) hPresented).mono ?_)
  intro decision past s hDecided
  by_cases hDecision : decision = .approved
  · have hTrusted : In (Trusted na c d k) past s := ⟨Or.inr (hDecided.2 hDecision), hDecided.1.2⟩
    simp only [hDecision, ne_eq, not_true_eq_false, if_false]
    refine plain_safe (lasting_trusted d k) trivial hTrusted fun _ past s h _ => ?_
    refine plain_safe (lasting_trusted d k) trivial h fun _ past s h _ => ?_
    exact Safe.ret (a := some k) (paired_stable d _) h
  · simp only [hDecision, ne_eq, not_false_eq_true, if_true]
    exact Safe.op_any (fun _ _ => trivial) (fun _ => reset_safe fun _ _ => trivial) past s

theorem lasting_true : Lasting fun _ => True :=
  fun _ _ _ => trivial

/-- A handshake that succeeds has identified the peer by a trusted key, stored
or approved. -/
theorem handshake_safe {ip : String} {past : List ConnLabel} {s : World}
    (h : In (fun _ => True) past s) :
    Safe sys (ok na c) (handshake na c ip) (Handshaken na c) past s := by
  refine plain_safe lasting_true trivial h fun now past s h _ => ?_
  simp only [Prog.bind_def, Prog.ret_bind]
  refine exchange_safe lasting_true h (drop_safe fun _ _ => trivial) fun id past s h _ => ?_
  refine plain_safe lasting_true trivial h fun stored past s h hLookup => ?_
  have hStored : In (.did (.getPubkey (decodeDeviceId id)) stored ∈ ·) past s := ⟨hLookup, h.2⟩
  refine plain_safe (lasting_mem _) trivial hStored fun now past s h _ => ?_
  simp only [Prog.ret_bind]
  refine exchange_safe (lasting_mem _) h (drop_safe fun _ _ => trivial) fun flag past s h _ => ?_
  have hPair : Safe sys (ok na c) ((pair na c ip (decodeDeviceId id)).bind (respondAfter na c (decodeDeviceId id)))
      (Handshaken na c) past s :=
    pair_respond_safe (pair_safe (lasting_mem _) h) (fun _ _ _ => Safe.ret (a := none) (handshaken_stable _) trivial)
      fun _ _ _ hPaired => respondIk_safe hPaired
  refine branch_cases na c ip _ stored (flag.only != 0) (P := (Safe sys (ok na c) · (Handshaken na c) past s)) hPair
    fun k hStored _ => ?_
  rw [hStored] at h
  exact respondIk_safe ⟨Or.inl h.1, h.2⟩

theorem admitted_stable (d : UInt64) : Stable sys (Admitted na c d) := by
  rintro past s a s' ⟨k, hIk, hTrusted, hKicked⟩ ⟨-, rfl⟩
  rw [Admitted, sinceAccept_env]
  refine ⟨k, List.mem_cons_of_mem _ hIk, lasting_trusted d k _ _ hTrusted, fun hAtAccept => ?_⟩
  refine lasting_approved _ d k _ _ (hKicked ?_)
  cases a <;> exact hAtAccept

/-- What the gate guarantees to a device that passes it. -/
def Passed (na : Sodium UInt8) (c : TcpServer) (d : UInt64) :
    Option Unit → Assertion Op Ans Action World
  | none => fun _ _ => True
  | some _ => Admitted na c d

/-- A device that has passed the gate stays admitted. -/
theorem passed_stable (d : UInt64) (result : Option Unit) : Stable sys (Passed na c d result) := by
  cases result with
  | none => exact fun _ _ _ _ _ _ => trivial
  | some _ => exact admitted_stable d

/-- A kicked device passes only with an approval that was given to it here. -/
theorem reapprove_safe {ip : String} {d : UInt64} {ik : IkResult UInt8} {past : List ConnLabel}
    {s : World} (h : In (Identified na c d ik.peerStatic) past s) :
    Safe sys (ok na c) (reapprove na c ip d ik) (Passed na c d) past s := by
  have hLasting : Lasting (Identified na c d ik.peerStatic) := lasting_identified _ _
  refine .op _ (in_stable hLasting) h (fun _ _ _ => trivial) fun past s r s' h hExec => ?_
  have hIn := in_did (o := .kickedCount d) hLasting trivial h hExec
  obtain ⟨hCount, rfl⟩ := hExec
  cases r with
  | false =>
      refine Safe.ret (a := some ()) (passed_stable d _) ⟨ik.peerStatic, hIn.1.1, hIn.1.2, ?_⟩
      intro hAtAccept
      rw [← hIn.2, ← hCount] at hAtAccept
      cases hAtAccept
  | true =>
      simp only [Prog.bind_def, Prog.ret_bind, if_true]
      refine Safe.bind ((prompt_safe hLasting hIn).mono ?_)
      intro decision past s hDecided
      by_cases hDecision : decision = .approved
      · simp only [hDecision, ne_eq, not_true_eq_false, if_false]
        have hBoth : Lasting fun events => Identified na c d ik.peerStatic events ∧
            Approved na c (fun _ => True) d ik.peerStatic events :=
          fun l events h => ⟨hLasting l events h.1, lasting_approved _ _ _ l events h.2⟩
        have hNow : In (fun events => Identified na c d ik.peerStatic events ∧
            Approved na c (fun _ => True) d ik.peerStatic events) past s :=
          ⟨⟨hDecided.1.1, (hDecided.2 hDecision).weaken⟩, hDecided.1.2⟩
        refine .op _ (in_stable hBoth) hNow (fun _ _ _ => trivial) fun past s _ s' h hExec => ?_
        refine Safe.ret (a := some ()) (passed_stable d _) ?_
        have hEvents := hBoth (.did (.kickedErase d) ()) _ h.1
        exact ⟨ik.peerStatic, hEvents.1.1, hEvents.1.2, fun _ => hEvents.2⟩
      · simp only [hDecision, ne_eq, not_false_eq_true, if_true]
        exact Safe.op_any (fun _ _ => trivial) (fun _ => reset_safe fun _ _ => trivial) past s

/-- Within a session nobody else is published as connected. -/
theorem harmless_of_session {o : Op} (h : IsSessionOp o) : IsHarmless o := by
  cases o <;> simp_all [IsHarmless, IsSessionOp]

/-- A session publishes the device that was admitted. -/
theorem session_safe {ip : String} {d : UInt64} {ik : IkResult UInt8} {past : List ConnLabel}
    {s : World} (h : Admitted na c d past s) :
    Safe sys (ok na c) (session c ip d ik) (fun _ _ _ => True) past s := by
  apply session_cases c (M := fun p => Safe sys (ok na c) p (fun _ _ _ => True) past s) (fun _ => harmless_of_session)
    (fun _ => trivial) trivial trivial nofun trivial
  intro next hNext
  exact .op (Admitted na c d) (admitted_stable d) h (fun past s h _ => h) fun past s r s' _ _ => harmless_safe (hNext r) _ _

/-- For every client, a connection is published only for an
admitted device. -/
theorem serve_safe {ip : String} {past : List ConnLabel} {s : World}
    (h : In (fun _ => True) past s) :
    Safe sys (ok na c) (serve na c ip) (fun _ _ _ => True) past s := by
  refine Safe.bind ((handshake_safe h).mono ?_)
  intro result past s hHandshaken
  cases result with
  | none => exact .ret (fun _ _ _ _ _ _ => trivial) trivial
  | some result =>
      refine plain_safe (lasting_identified _ _) trivial hHandshaken fun _ past s h _ => ?_
      simp only [Prog.bind_def, Prog.ret_bind]
      refine Safe.bind ((reapprove_safe h).mono ?_)
      intro passed past s hPassed
      cases passed with
      | none => exact .ret (fun _ _ _ _ _ _ => trivial) trivial
      | some _ => exact session_safe hPassed

/-- So it is in every run of the server thread, over any
sequence of clients. -/
theorem run_safe (past : List ConnLabel) (s : World) :
    Safe sys (ok na c) (run na c) (fun _ _ _ => True) past s := by
  have hTrue : Stable sys fun _ _ => True := fun _ _ _ _ _ _ => trivial
  apply run_rule na c (C := fun o => ∀ past s, ok na c o past s) hTrue
    (fun hO h hNext => Safe.op_any hO (fun r past s => hNext r past s trivial) _ _) (fun _ _ => trivial) fun _ _ _ => trivial
  · exact fun _ _ _ => trivial
  · exact fun _ _ _ _ _ => trivial
  · intro past s ip s' _ hExec
    rcases hExec with ⟨hNone, -⟩ | ⟨_, stream, hIp, rfl⟩
    · cases hNone
    · cases hIp
      exact serve_safe ⟨trivial, rfl⟩
  · trivial

/-- Whenever the server publishes a device as connected, on that connection
the peer has proved to hold a key, that key was stored for the device or
approved by the user after being shown, and a device that had been kicked was
approved anew. -/
theorem run_admits {w s : World} {past : List ConnLabel} {info : ConnectionInfo}
    {next : Unit → ConnProg Unit}
    (hRun : Run sys (run na c) w past (.op (.assignStatus info) next) s)
    (hState : info.state = .connected) : Admitted na c info.peerDeviceId past s :=
  Safe.ok_of_run (run_safe [] w) hRun hState

/-- A stored device that was not kicked can connect. -/
theorem run_connects (hNa : na.Contract) (w : World) (si ei er : Keypair UInt8) (d : UInt64)
    (hRunning : w.running = true) (hStored : w.knownPeers.getPubkey d = some si.publicKey)
    (hNotKicked : w.kicked d = false) (hSi : si.Genuine na) (hSr : c.ownStatic.Genuine na)
    (hEi : ei.Genuine na) {msg1 msg2 : List UInt8} {state : SymmetricState UInt8}
    {result : IkResult UInt8}
    (hMsg1 : ikWriteMsg1 na si c.ownStatic.publicKey ei = some (msg1, state))
    (hMsg2 : ikWriteMsg2 na ⟨ei.publicKey, si.publicKey, state⟩ er = some (msg2, result)) :
    ∃ past info next s, info.state = .connected ∧
      Run sys (run na c) w past (.op (.assignStatus info) next) s := by
  have hLen := ikWriteMsg1_length hNa.toAeadContract hMsg1
  have hHello := ikReadMsg1_ikWriteMsg1 hNa hSi hSr hEi hMsg1 hLen
  obtain ⟨ee, se, ct2, state₂, -, -, -, -, -, hResult⟩ := ikWriteMsg2_some hNa.toAeadContract hMsg2
  have hStart : Gets (fun _ => True) (run na c) w (run na c) w.incoming := .begins rfl
  have hLoop := hStart.loop
  have hLoaded := hLoop.running
  simp only [hRunning, Prog.bind_def, Prog.ret_bind, Bool.not_true, Bool.false_eq_true, if_false,
    Prog.perform_bind, Prog.op_bind] at hLoaded
  have hReadable := hLoaded.free trivial true
  simp only [Bool.not_true, Bool.false_eq_true, if_false, Prog.op_bind] at hReadable
  have hAccepted := hReadable.accept "192.168.0.3" ((encodeDeviceId d).val ++ (0 :: msg1))
  simp only [serve, handshake, Prog.bind_def, Prog.perform_bind, Prog.op_bind, Prog.bind_assoc] at hAccepted
  obtain ⟨t₁, hNow⟩ := hAccepted.now
  have hIds := hNow.exchange (encodeDeviceId d) _
  simp only [decodeDeviceId_encodeDeviceId, Prog.op_bind, Prog.bind_assoc] at hIds
  have hKnown := hIds.lookup
  rw [decodeDeviceId_encodeDeviceId, hStored] at hKnown
  obtain ⟨t₂, hNow⟩ := hKnown.now
  have hFlags := Gets.exchange ⟨[0], rfl⟩ msg1 hNow
  have hDirect : (Bytes.only ⟨[(0 : UInt8)], rfl⟩ != 0) = false := rfl
  simp only [hDirect, respondIk, Prog.bind_def, Prog.perform_bind, Prog.op_bind, Prog.bind_assoc,
    runIkResponder_eq, Prog.interp, ikOp] at hFlags
  obtain ⟨t₃, hNow⟩ := hFlags.now
  have hStarts := hNow.free trivial ()
  rw [← List.append_nil msg1] at hStarts
  have hReceived := Gets.recv ⟨msg1, hLen⟩ [] hStarts
  simp only [Option.bind_some, hHello, Prog.interp, ikOp, Prog.perform_bind, Prog.op_bind] at hReceived
  have hDrawn := hReceived.free trivial er
  simp only [hMsg2, Prog.interp, ikOp, Prog.perform_bind, Prog.op_bind] at hDrawn
  have hSent := hDrawn.free trivial true
  simp only [if_true, Prog.ret_bind, Prog.op_bind] at hSent
  have hNoted := hSent.free trivial ()
  have hKey : result.peerStatic = si.publicKey := by rw [hResult]
  simp only [hKey, ne_eq, not_true_eq_false, if_false, Prog.pure_def, Prog.ret_bind, Prog.op_bind] at hNoted
  have hOpened := hNoted.free trivial ()
  simp only [reapprove, Prog.bind_def, Prog.perform_bind, Prog.op_bind, Prog.bind_assoc] at hOpened
  have hGate := hOpened.kickedCount
  simp only [hNotKicked, Bool.false_eq_true, if_false, Prog.pure_def, Prog.ret_bind, session,
    Prog.bind_def, Prog.perform_bind, Prog.op_bind] at hGate
  obtain ⟨past, s, hRun, -⟩ := hGate
  exact ⟨past, _, _, s, rfl, hRun⟩

section Instance

/-- A Master that knows one device, number 7. -/
def master : TcpServer where
  ownDeviceId := 2
  ownStatic := plainKeypair 2
  audioPort := 5000

def masterWorld : World :=
  World.fresh ⟨fun d => if d = 7 then some (plainKeypair 1).publicKey else none,
    fun d => if d = 7 then some (plainKeypair 1).publicKey else none⟩ []

/-- Device 7 is connected with its stored key. -/
theorem run_admits_stored : ∃ past info next s,
    Run sys (run plainSodium master) masterWorld past (.op (.assignStatus info) next) s ∧
      Admitted plainSodium master info.peerDeviceId past s := by
  obtain ⟨past, info, next, s, hState, hRun⟩ : ∃ past info next s, info.state = .connected ∧
      Run sys (run plainSodium master) masterWorld past (.op (.assignStatus info) next) s :=
    run_connects (c := master) plainSodium_contract masterWorld (plainKeypair 1) (plainKeypair 3)
      (plainKeypair 4) 7 rfl rfl rfl rfl rfl rfl rfl rfl
  exact ⟨past, info, next, s, hRun, run_admits hRun hState⟩

end Instance

end NoCapKVM.Discovery.Admission
