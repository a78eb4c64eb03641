import NoCapKVM.Discovery.Console
import NoCapKVM.Discovery.PlainSodium

/-! Whom an approval admits. The decision flag has no request identity, so a
click may be read as the answer to a later request than the one it was made for. -/
namespace NoCapKVM.Discovery.StaleApproval

open Thread TcpServer

/-- The fingerprint of the request that is published. -/
def requested : List UiLabel → Option String
  | [] => none
  | .did (.assignStatus info) _ :: _ =>
      if info.state = .pairing then some info.pairingFingerprint else none
  | _ :: past => requested past

/-- The fingerprint of the request whose decision the server waits for, once
it has forgotten earlier decisions. -/
def awaited : List UiLabel → Option String
  | [] => none
  | .did (.storeDecision _) _ :: past => requested past
  | .did (.assignStatus _) _ :: _ => none
  | .did .loadDecision d :: past => if d = .pending then awaited past else none
  | _ :: past => awaited past

/-- What the click has shown that the decision flag comes from. -/
def basis : List UiLabel → Option String
  | [] => none
  | .env (.accept fingerprint) :: _ => some fingerprint
  | .env .reject :: _ => none
  | .did (.storeDecision _) _ :: _ => none
  | _ :: past => basis past

/-- What was shown by the clicks that were read as approvals on the current
connection. -/
def approvals : List UiLabel → List String
  | [] => []
  | .did .accept (some _) :: _ => []
  | .did .loadDecision .approved :: past => (basis past).toList ++ approvals past
  | _ :: past => approvals past

/-- The key that the peer of the current connection has proved to hold. -/
def provedKey : List UiLabel → Option (Key32 UInt8)
  | [] => none
  | .did .accept (some _) :: _ => none
  | .did (.remark (.ikSucceeded k)) _ :: _ => some k
  | _ :: past => provedKey past

/-- No click accepts a request while the server waits for the decision on
another one. -/
def Current : List UiLabel → Prop
  | [] => True
  | .env (.accept fingerprint) :: past =>
      (∀ other ∈ awaited past, fingerprint = other) ∧ Current past
  | _ :: past => Current past

instance decidableCurrent : DecidablePred Current
  | [] => .isTrue trivial
  | .did _ _ :: past => decidableCurrent past
  | .env (.accept fingerprint) :: past =>
      have := decidableCurrent past
      inferInstanceAs (Decidable ((∀ other ∈ awaited past, fingerprint = other) ∧ Current past))
  | .env .look :: past => decidableCurrent past
  | .env .reject :: past => decidableCurrent past
  | .env .disconnect :: past => decidableCurrent past
  | .env (.other _) :: past => decidableCurrent past

section

variable (na : Sodium UInt8) (c : TcpServer)

/-- Every approval on this connection was given to the fingerprint of
the key `k`. -/
def Meant (k : Key32 UInt8) (past : List UiLabel) : Prop :=
  ∀ fingerprint ∈ approvals past, fingerprint = computeFingerprint na k c.ownStatic.publicKey

/-- A key is stored, and a peer is admitted, only by approvals that were
meant for it. -/
def MeantOp : Op → List UiLabel → Prop
  | .remember _ k, past => Meant na c k past
  | .assignStatus info, past => info.state = .connected → ∃ k, provedKey past = some k ∧ Meant na c k past
  | _, _ => True

def ok : Op → Assertion Op Ans UiAction Console :=
  fun o past _ => Current past → MeantOp na c o past

end

variable {na : Sodium UInt8} {c : TcpServer} {α : Type}

/-- Operations that the functions above do not look at. -/
def IsPlain : Op → Prop
  | .accept | .assignStatus _ | .storeDecision _ | .loadDecision | .remember .. => False
  | .remark (.ikSucceeded _) => False
  | _ => True

/-- What neither the UI nor a plain operation can make false. -/
structure Calm (P : List UiLabel → Prop) : Prop where
  env : ∀ a past, P past → P (.env a :: past)
  did : ∀ o r past, IsPlain o → P past → P (.did o r :: past)

/-- What the UI and the plain operations leave alone does not depend on the
other threads. -/
theorem Calm.stable {P : List UiLabel → Prop} (hP : Calm P) : Stable consoleSystem fun past _ => P past :=
  fun past _ a _ h _ => hP.env a past h

/-- A plain operation of the server keeps every fact of this kind. -/
theorem plain_safe {P : List UiLabel → Prop} (hP : Calm P) {o : Op} {next : Ans o → ConnProg α}
    {Q : α → Assertion Op Ans UiAction Console} {past : List UiLabel} {s : Console} (hO : IsPlain o)
    (h : P past) (hNext : ∀ r past s, P past → Safe consoleSystem (ok na c) (next r) Q past s) :
    Safe consoleSystem (ok na c) (.op o next) Q past s := by
  refine .op (fun past _ => P past) hP.stable h (fun past s _ _ => ?_) fun past s r s' h _ =>
    hNext r _ _ (hP.did o r past hO h)
  cases o <;> trivial

/-- A program of plain operations. -/
theorem plain_uses_safe {P : List UiLabel → Prop} (hP : Calm P) {p : ConnProg α} (hUses : p.Uses IsPlain)
    {past : List UiLabel} {s : Console} (h : P past) :
    Safe consoleSystem (ok na c) p (fun _ past _ => P past) past s := by
  refine Safe.frame (fun past _ => P past) hP.stable ?_
    (fun o past _ r _ hO h _ => hP.did o r past hO h) hUses h
  intro o past s hO _ _
  cases o <;> trivial

/-- Clicks that are current up to an event were current before it. -/
theorem current_cons {l : UiLabel} {past : List UiLabel} (h : Current (l :: past)) : Current past := by
  cases l with
  | did o r => exact h
  | env a => cases a <;> first
      | exact h
      | exact h.2

theorem calm_true : Calm fun _ => True :=
  ⟨fun _ _ _ => trivial, fun _ _ _ _ _ => trivial⟩

/-- Nothing was approved on this connection yet. -/
def Unapproved (past : List UiLabel) : Prop :=
  Current past → approvals past = []

/-- Plain operations read no approval. -/
theorem approvals_did {o : Op} (hO : IsPlain o) (r : Ans o) (past : List UiLabel) :
    approvals (.did o r :: past) = approvals past := by
  cases o <;> first
    | rfl
    | exact hO.elim

/-- Plain operations prove no key. -/
theorem provedKey_did {o : Op} (hO : IsPlain o) (r : Ans o) (past : List UiLabel) :
    provedKey (.did o r :: past) = provedKey past := by
  cases o with
  | remark m => cases m <;> first
      | rfl
      | exact hO.elim
  | _ => first
      | rfl
      | exact hO.elim

/-- That nothing was approved yet changes only when an approval is read. -/
theorem calm_unapproved : Calm Unapproved where
  env a past h hCurrent := h (current_cons hCurrent)
  did o r past hO h hCurrent := by
    rw [approvals_did hO]
    exact h hCurrent

/-- The approvals that were read stay as they are. -/
theorem calm_meant (k : Key32 UInt8) : Calm fun past => Current past → Meant na c k past where
  env a past h hCurrent := h (current_cons hCurrent)
  did o r past hO h hCurrent := by
    rw [Meant, approvals_did hO]
    exact h hCurrent

/-- So does the key that the peer has proved to hold. -/
theorem calm_proved (k : Key32 UInt8) : Calm (provedKey · = some k) where
  env _ _ h := h
  did _ r past hO h := (provedKey_did hO r past).trans h

/-- Two facts of this kind are one. -/
theorem Calm.and {P Q : List UiLabel → Prop} (hP : Calm P) (hQ : Calm Q) : Calm fun past => P past ∧ Q past where
  env a past h := ⟨hP.env a past h.1, hQ.env a past h.2⟩
  did o r past hO h := ⟨hP.did o r past hO h.1, hQ.did o r past hO h.2⟩

section Prompt

/-- What also the operations of a prompt leave as it is. -/
structure Steady (P : List UiLabel → Prop) : Prop extends Calm P where
  assign : ∀ info past, P past → P (.did (.assignStatus info) () :: past)
  store : ∀ d past, P past → P (.did (.storeDecision d) () :: past)
  load : ∀ d past, P past → P (.did .loadDecision d :: past)

theorem steady_true : Steady fun _ => True where
  toCalm := calm_true
  assign _ _ _ := trivial
  store _ _ _ := trivial
  load _ _ _ := trivial

theorem steady_proved (k : Key32 UInt8) : Steady (provedKey · = some k) where
  toCalm := calm_proved k
  assign _ _ h := h
  store _ _ h := h
  load _ _ h := h

variable {P : List UiLabel → Prop} {k : Key32 UInt8}

/-- `P`, and all approvals so far were meant for the key `k`. -/
def Fine (na : Sodium UInt8) (c : TcpServer) (P : List UiLabel → Prop) (k : Key32 UInt8) (past : List UiLabel) :
    Prop :=
  P past ∧ (Current past → Meant na c k past)

/-- For whom the approvals were meant stays a fact about the past. -/
theorem calm_fine (hP : Calm P) : Calm (Fine na c P k) :=
  hP.and (calm_meant k)

def Asked (na : Sodium UInt8) (c : TcpServer) (P : List UiLabel → Prop) (k : Key32 UInt8) (past : List UiLabel) :
    Prop :=
  Fine na c P k past ∧ requested past = some (computeFingerprint na k c.ownStatic.publicKey)

/-- While the server waits, the decision flag comes from a click on this
request. -/
def Waiting (na : Sodium UInt8) (c : TcpServer) (P : List UiLabel → Prop) (k : Key32 UInt8)
    (past : List UiLabel) : Prop :=
  Fine na c P k past ∧ awaited past = some (computeFingerprint na k c.ownStatic.publicKey) ∧
    (Current past → ∀ fingerprint, basis past = some fingerprint →
      fingerprint = computeFingerprint na k c.ownStatic.publicKey)

/-- Plain operations publish no request, so the same fingerprint is shown. -/
theorem requested_did {o : Op} (hO : IsPlain o) (r : Ans o) (past : List UiLabel) :
    requested (.did o r :: past) = requested past := by
  cases o <;> first
    | rfl
    | exact hO.elim

/-- They also leave the request that the server waits for as it is. -/
theorem awaited_did {o : Op} (hO : IsPlain o) (r : Ans o) (past : List UiLabel) :
    awaited (.did o r :: past) = awaited past := by
  cases o <;> first
    | rfl
    | exact hO.elim

/-- And they do not set the decision flag. -/
theorem basis_did {o : Op} (hO : IsPlain o) (r : Ans o) (past : List UiLabel) :
    basis (.did o r :: past) = basis past := by
  cases o <;> first
    | rfl
    | exact hO.elim

/-- A request that is shown stays shown, and a click on it is a click on this
request. -/
theorem calm_asked (hP : Calm P) : Calm (Asked na c P k) where
  env a past h := ⟨(calm_fine hP).env a past h.1, h.2⟩
  did o r past hO h := ⟨(calm_fine hP).did o r past hO h.1, (requested_did hO r past).trans h.2⟩

/-- While the server waits, a current click can only be on the request that it
waits for. -/
theorem calm_waiting (hP : Calm P) : Calm (Waiting na c P k) where
  env a past h := by
    obtain ⟨hFine, hAwaited, hBasis⟩ := h
    refine ⟨(calm_fine hP).env a past hFine, hAwaited, fun hCurrent fingerprint hClick => ?_⟩
    cases a with
    | accept shown =>
        obtain rfl := Option.some.inj hClick
        exact hCurrent.1 _ hAwaited
    | reject => cases hClick
    | _ => exact hBasis hCurrent fingerprint hClick
  did o r past hO h := by
    obtain ⟨hFine, hAwaited, hBasis⟩ := h
    refine ⟨(calm_fine hP).did o r past hO hFine, (awaited_did hO r past).trans hAwaited, ?_⟩
    rw [basis_did hO]
    exact hBasis

/-- A decision that is read was meant for this request. -/
theorem fine_load (hP : Steady P) {past : List UiLabel} (h : Waiting na c P k past) (d : PairingDecision) :
    Fine na c P k (.did .loadDecision d :: past) := by
  obtain ⟨⟨hPast, hMeant⟩, -, hBasis⟩ := h
  refine ⟨hP.load d past hPast, fun hCurrent fingerprint hMem => ?_⟩
  cases d with
  | approved =>
      rcases List.mem_append.mp hMem with hClick | hEarlier
      · exact hBasis hCurrent fingerprint (Option.mem_toList.mp hClick)
      · exact hMeant hCurrent fingerprint hEarlier
  | pending => exact hMeant hCurrent fingerprint hMem
  | rejected => exact hMeant hCurrent fingerprint hMem

/-- A look that finds no decision leaves the wait as it is. -/
theorem waiting_load (hP : Steady P) {past : List UiLabel} (h : Waiting na c P k past) :
    Waiting na c P k (.did .loadDecision .pending :: past) :=
  ⟨fine_load hP h .pending, h.2.1, h.2.2⟩

/-- A wait that ends with an approval adds one that was meant for the key in
question. -/
theorem awaitDecision_safe (hP : Steady P) (approvalDeadline : Time) {past : List UiLabel} {s : Console}
    (h : Waiting na c P k past) :
    Safe consoleSystem (ok na c) (awaitDecision approvalDeadline) (fun _ past _ => Fine na c P k past)
      past s := by
  have hWaiting : Calm (Waiting na c P k) := calm_waiting hP.toCalm
  apply awaitDecision_rule (C := IsPlain) hWaiting.stable (fun _ => (calm_fine hP.toCalm).stable)
    (fun hO h hNext => plain_safe hWaiting hO h hNext) trivial trivial fun _ => trivial
  · exact fun past s h => h.1
  · exact fun _ _ _ _ => trivial
  · exact fun past s s' h _ => waiting_load hP h
  · exact fun past s decision s' h _ => fine_load hP h decision
  · exact h

/-- Publishing a request shows the fingerprint of its key, and of no other. -/
theorem asked_publish (hP : Steady P) {info : ConnectionInfo} (hState : info.state = .pairing)
    (hShown : info.pairingFingerprint = computeFingerprint na k c.ownStatic.publicKey) {past : List UiLabel}
    (h : Fine na c P k past) : Asked na c P k (.did (.assignStatus info) () :: past) := by
  refine ⟨⟨hP.assign info past h.1, h.2⟩, ?_⟩
  rw [requested, if_pos hState, hShown]

/-- What a prompt reads as an approval was given to the fingerprint
that it shows. -/
theorem prompt_safe (hP : Steady P) {ip : String} {d : UInt64} {past : List UiLabel} {s : Console}
    (h : Fine na c P k past) :
    Safe consoleSystem (ok na c) (prompt na c ip d k) (fun _ past _ => Fine na c P k past) past s := by
  have hNotConnected : ConnectionState.pairing ≠ .connected := by decide
  refine .op (fun past _ => Fine na c P k past) (calm_fine hP.toCalm).stable h
    (fun past s _ _ hState => absurd hState hNotConnected) fun past s _ s' h _ => ?_
  refine .op (fun past _ => Asked na c P k past) (calm_asked hP.toCalm).stable
    (asked_publish hP rfl rfl h) (fun _ _ _ _ => trivial) fun past s _ s' h _ => ?_
  have hWaiting : Waiting na c P k (.did (.storeDecision .pending) () :: past) :=
    ⟨⟨hP.store _ past h.1.1, h.1.2⟩, h.2, fun _ _ hClick => nomatch hClick⟩
  exact plain_safe (calm_waiting hP.toCalm) trivial hWaiting fun start past s h =>
    awaitDecision_safe hP _ h

end Prompt

section Connection

variable {ip : String}

theorem true_stable {β : Type} (_ : β) : Stable consoleSystem fun _ _ => True :=
  fun _ _ _ _ _ _ => trivial

theorem drop_safe {Q : Option α → Assertion Op Ans UiAction Console} (hQ : ∀ past s, Q none past s)
    (past : List UiLabel) (s : Console) : Safe consoleSystem (ok na c) drop Q past s := by
  refine Safe.op_any (fun _ _ _ => trivial) (fun _ past s => ?_) past s
  exact .ret (fun _ _ _ _ _ _ => hQ _ _) (hQ _ _)

theorem reset_safe {Q : Option α → Assertion Op Ans UiAction Console} (hQ : ∀ past s, Q none past s)
    (past : List UiLabel) (s : Console) : Safe consoleSystem (ok na c) reset Q past s := by
  refine Safe.op_any (fun _ _ _ => trivial) (fun _ past s => ?_) past s
  refine Safe.op_any (fun _ _ _ hState => nomatch hState) (fun _ past s => ?_) past s
  exact .ret (fun _ _ _ _ _ _ => hQ _ _) (hQ _ _)

/-- A message is sent and one is received. -/
theorem exchange_safe {P : List UiLabel → Prop} (hP : Calm P) {phase : Phase} {sent : List UInt8}
    {len : Nat} {deadline : Time} {next : Option (Bytes UInt8 len) → ConnProg α}
    {Q : α → Assertion Op Ans UiAction Console} {past : List UiLabel} {s : Console} (h : P past)
    (hNone : ∀ past s, Safe consoleSystem (ok na c) (next none) Q past s)
    (hSome : ∀ data past s, P past → Safe consoleSystem (ok na c) (next (some data)) Q past s) :
    Safe consoleSystem (ok na c) ((exchange phase sent len deadline).bind next) Q past s := by
  refine plain_safe hP trivial h fun sent past s h => ?_
  cases sent with
  | false => exact hNone past s
  | true =>
      refine plain_safe hP trivial h fun received past s h => ?_
      cases received with
      | none => exact hNone past s
      | some data => exact hSome data past s h

/-- What a successful handshake guarantees. -/
def Handshaken (na : Sodium UInt8) (c : TcpServer) :
    Option (UInt64 × IkResult UInt8) → List UiLabel → Prop
  | none, _ => True
  | some (_, ik), past => Fine na c (provedKey · = some ik.peerStatic) ik.peerStatic past

/-- What a handshake guarantees stays true. -/
theorem calm_handshaken (result : Option (UInt64 × IkResult UInt8)) : Calm (Handshaken na c result) := by
  cases result with
  | none => exact calm_true
  | some result => exact calm_fine (calm_proved _)

theorem plain_of_transfer {o : Op} (h : IsTransfer o) : IsPlain o := by
  cases o <;> simp_all [IsTransfer, IsPlain]

/-- After the key exchange the peer has proved the key that the approvals were
meant for. -/
theorem respondIk_safe {d : UInt64} {k : Key32 UInt8} {past : List UiLabel} {s : Console}
    (h : Fine na c (fun _ => True) k past) :
    Safe consoleSystem (ok na c) (respondIk na c d k) (fun result past _ => Handshaken na c result past)
      past s := by
  have hFine : Calm (Fine na c (fun _ => True) k) := calm_fine calm_true
  refine plain_safe hFine trivial h fun now past s h => ?_
  refine plain_safe hFine trivial h fun _ past s h => ?_
  simp only [Prog.bind_def, Prog.ret_bind]
  refine Safe.bind ((plain_uses_safe hFine
    ((interp_ikOp_uses _ _ _ _).mono fun _ => plain_of_transfer) h).mono ?_)
  intro result past s h
  cases result with
  | none => exact reset_safe (fun _ _ => trivial) past s
  | some ik =>
      refine .op (fun past _ => Fine na c (fun _ => True) k past) hFine.stable h (fun _ _ _ _ => trivial)
        fun past s _ s' h _ => ?_
      by_cases hKey : k = ik.peerStatic
      · subst hKey
        simp only [Prog.ret_bind, ne_eq, not_true_eq_false, if_false]
        exact Safe.ret (a := some (d, ik)) (calm_handshaken (some (d, ik))).stable ⟨rfl, h.2⟩
      · simp only [Prog.ret_bind, ne_eq, hKey, not_false_eq_true, if_true]
        exact reset_safe (fun _ _ => trivial) _ _

/-- A key that comes out of a pairing was approved for itself. -/
theorem pair_safe {d : UInt64} {past : List UiLabel} {s : Console} (h : Unapproved past) :
    Safe consoleSystem (ok na c) (pair na c ip d)
      (fun result past _ => ∀ k, result = some k → Fine na c (fun _ => True) k past) past s := by
  have hStable : ∀ result : Option (Key32 UInt8), Stable consoleSystem fun past _ =>
      ∀ k, result = some k → Fine na c (fun _ => True) k past :=
    fun result past s a s' h _ k hK => (calm_fine calm_true).env a past (h k hK)
  refine plain_safe calm_unapproved trivial h fun now past s h => ?_
  simp only [Prog.bind_def, Prog.ret_bind]
  refine exchange_safe calm_unapproved h (drop_safe fun _ _ _ hK => nomatch hK) fun k past s h => ?_
  have hFine : Fine na c (fun _ => True) k past := by
    refine ⟨trivial, fun hCurrent fingerprint hMem => ?_⟩
    rw [h hCurrent] at hMem
    cases hMem
  refine Safe.bind ((prompt_safe steady_true hFine).mono ?_)
  intro decision past s hFine
  have hCalm : Calm (Fine na c (fun _ => True) k) := calm_fine calm_true
  by_cases hDecision : decision = .approved
  · simp only [hDecision, ne_eq, not_true_eq_false, if_false]
    refine plain_safe hCalm trivial hFine fun _ past s h => ?_
    refine .op (fun past _ => Fine na c (fun _ => True) k past) hCalm.stable h
      (fun past s h hCurrent => h.2 hCurrent) fun past s _ s' h _ => ?_
    refine Safe.ret (a := some k) (hStable (some k)) fun k' hK => ?_
    obtain rfl := Option.some.inj hK
    exact h
  · simp only [hDecision, ne_eq, not_false_eq_true, if_true]
    exact Safe.op_any (fun _ _ _ => trivial) (fun _ => reset_safe fun _ _ _ hK => nomatch hK) past s

/-- A handshake stores a key only if the approvals were meant for it, and
proves that key. -/
theorem handshake_safe {past : List UiLabel} {s : Console} (h : Unapproved past) :
    Safe consoleSystem (ok na c) (handshake na c ip) (fun result past _ => Handshaken na c result past)
      past s := by
  refine plain_safe calm_unapproved trivial h fun now past s h => ?_
  simp only [Prog.bind_def, Prog.ret_bind]
  refine exchange_safe calm_unapproved h (drop_safe fun _ _ => trivial) fun id past s h => ?_
  refine plain_safe calm_unapproved trivial h fun stored past s h => ?_
  refine plain_safe calm_unapproved trivial h fun now past s h => ?_
  simp only [Prog.ret_bind]
  refine exchange_safe calm_unapproved h (drop_safe fun _ _ => trivial) fun flag past s h => ?_
  have hPair : Safe consoleSystem (ok na c)
      ((pair na c ip (decodeDeviceId id)).bind (respondAfter na c (decodeDeviceId id)))
      (fun result past _ => Handshaken na c result past) past s :=
    pair_respond_safe (pair_safe h) (fun _ _ _ => Safe.ret (a := none) (calm_handshaken none).stable trivial)
      fun k _ _ hPaired => respondIk_safe (hPaired k rfl)
  refine branch_cases na c ip _ stored (flag.only != 0)
    (P := (Safe consoleSystem (ok na c) · (fun result past _ => Handshaken na c result past) past s)) hPair fun k _ _ => ?_
  refine respondIk_safe ⟨trivial, fun hCurrent fingerprint hMem => ?_⟩
  rw [h hCurrent] at hMem
  cases hMem

/-- A kicked device comes back only by approvals that were meant for the key
it has proved. -/
theorem reapprove_safe {d : UInt64} {ik : IkResult UInt8} {past : List UiLabel} {s : Console}
    (h : Fine na c (provedKey · = some ik.peerStatic) ik.peerStatic past) :
    Safe consoleSystem (ok na c) (reapprove na c ip d ik) (fun result past _ => result = some () →
      Fine na c (provedKey · = some ik.peerStatic) ik.peerStatic past) past s := by
  have hCalm : Calm (Fine na c (provedKey · = some ik.peerStatic) ik.peerStatic) :=
    calm_fine (calm_proved ik.peerStatic)
  have hStable : ∀ result : Option Unit, Stable consoleSystem fun past _ => result = some () →
      Fine na c (provedKey · = some ik.peerStatic) ik.peerStatic past :=
    fun result past s a s' h _ hPassed => hCalm.env a past (h hPassed)
  refine plain_safe hCalm trivial h fun kicked past s h => ?_
  cases kicked with
  | false => exact Safe.ret (a := some ()) (hStable _) fun _ => h
  | true =>
      simp only [Prog.bind_def, Prog.ret_bind, if_true]
      refine Safe.bind ((prompt_safe (steady_proved _) h).mono ?_)
      intro decision past s h
      by_cases hDecision : decision = .approved
      · simp only [hDecision, ne_eq, not_true_eq_false, if_false]
        exact plain_safe hCalm trivial h fun _ past s h => Safe.ret (a := some ()) (hStable _) fun _ => h
      · simp only [hDecision, ne_eq, not_false_eq_true, if_true]
        exact Safe.op_any (fun _ _ _ => trivial) (fun _ => reset_safe fun _ _ hPassed => nomatch hPassed)
          past s

/-- Operations that store and admit nobody. -/
def IsHarmless : Op → Prop
  | .remember .. => False
  | .assignStatus info => info.state ≠ .connected
  | _ => True

theorem harmless_safe {p : ConnProg α} (hP : p.Uses IsHarmless) (past : List UiLabel) (s : Console) :
    Safe consoleSystem (ok na c) p (fun _ _ _ => True) past s := by
  refine Safe.frame (fun _ _ => True) (true_stable ()) ?_ (fun _ _ _ _ _ _ _ _ => trivial) hP trivial
  intro o past s hO _
  cases o <;> simp_all [ok, MeantOp, IsHarmless]

/-- A session stores no key and admits nobody else. -/
theorem harmless_of_session {o : Op} (h : IsSessionOp o) : IsHarmless o := by
  cases o <;> simp_all [IsHarmless, IsSessionOp]

/-- A session admits the peer whose approvals were meant for its key. -/
theorem session_safe {d : UInt64} {ik : IkResult UInt8} {past : List UiLabel} {s : Console}
    (h : Fine na c (provedKey · = some ik.peerStatic) ik.peerStatic past) :
    Safe consoleSystem (ok na c) (session c ip d ik) (fun _ _ _ => True) past s := by
  apply session_cases c (M := fun p => Safe consoleSystem (ok na c) p (fun _ _ _ => True) past s)
    (fun _ => harmless_of_session) (fun _ => trivial) trivial trivial nofun trivial
  intro next hNext
  apply Safe.op (fun past _ => Fine na c (provedKey · = some ik.peerStatic) ik.peerStatic past)
    (calm_fine (calm_proved _)).stable h
  · exact fun past s h hCurrent _ => ⟨_, h.1, h.2 hCurrent⟩
  · exact fun past s r s' _ _ => harmless_safe (hNext r) _ _

/-- Serving one client uses each approval for the key that its
click has shown. -/
theorem serve_safe {past : List UiLabel} {s : Console} (h : Unapproved past) :
    Safe consoleSystem (ok na c) (serve na c ip) (fun _ _ _ => True) past s := by
  refine Safe.bind ((handshake_safe h).mono ?_)
  intro result past s hHandshaken
  cases result with
  | none => exact .ret (true_stable ()) trivial
  | some result =>
      refine plain_safe (calm_handshaken (some result)) trivial hHandshaken fun _ past s h => ?_
      simp only [Prog.bind_def, Prog.ret_bind]
      refine Safe.bind ((reapprove_safe h).mono ?_)
      intro passed past s hPassed
      cases passed with
      | none => exact .ret (true_stable ()) trivial
      | some _ => exact session_safe (hPassed rfl)

/-- So does every run of the server thread, over any sequence of clients. -/
theorem run_safe (past : List UiLabel) (s : Console) :
    Safe consoleSystem (ok na c) (run na c) (fun _ _ _ => True) past s := by
  apply run_rule na c (C := fun o => ∀ past s, ok na c o past s) (true_stable ())
    (fun hO h hNext => Safe.op_any hO (fun r past s => hNext r past s trivial) _ _) (fun _ _ _ => trivial) fun _ _ _ _ => trivial
  · exact fun _ _ _ _ => trivial
  · exact fun _ _ _ _ _ => trivial
  · exact fun past s ip s' _ _ => serve_safe fun _ => rfl
  · trivial

end Connection

/-- As long as no click accepts a request while the server waits for the
decision on another one, every key that is stored and every peer that is
admitted has the fingerprint that was shown to whoever approved it. -/
theorem run_means {w s : Console} {past : List UiLabel} {o : Op} {next : Ans o → ConnProg Unit}
    (hRun : Run consoleSystem (run na c) w past (.op o next) s) (hCurrent : Current past) :
    MeantOp na c o past :=
  Safe.ok_of_run (run_safe [] w) hRun hCurrent

section Instance

def master : TcpServer where
  ownDeviceId := 2
  ownStatic := plainKeypair 2
  audioPort := 5000

/-- A Master that knows nobody. -/
def console : Console :=
  ⟨World.fresh ⟨fun _ => none, fun _ => none⟩ [], {}⟩

/-- What a device sends until it waits for the decision. -/
def request (d : UInt64) (k : Keypair UInt8) : List UInt8 :=
  (encodeDeviceId d).val ++ (1 :: k.publicKey.val)

def usual (n : Nat) : List (Cue UiAction Choice) :=
  List.replicate n (.answer .usual)

/-- From the loop over connections to the first look for a decision. -/
def promptCues (stream : List UInt8) : List (Cue UiAction Choice) :=
  .enter :: usual 2 ++ .answer (.client "192.168.0.3" stream) :: usual 13 ++ [.enter]

/-- The click comes while the request that it has shown is waited for. -/
def promptAnswerCues : List (Cue UiAction Choice) :=
  promptCues (request 7 (plainKeypair 4)) ++ [.env .look, .env (.accept "040404")] ++ usual 4

/-- The request that the click has shown times out, another device comes, and
then the click. -/
def lateAnswerCues : List (Cue UiAction Choice) :=
  promptCues (request 7 (plainKeypair 4)) ++ [.env .look] ++ usual 4 ++ .enter :: usual 1 ++
    .answer (.time (seconds 121)) :: usual 3 ++ promptCues (request 8 (plainKeypair 5)) ++
    .env (.accept "040404") :: usual 4

def storesKey : Prog Op Ans Unit → Option (Key32 UInt8)
  | .op (.remember _ k) _ => some k
  | _ => none

/-- The test for a store finds the key that is stored. -/
theorem storesKey_some {p : Prog Op Ans Unit} {k : Key32 UInt8} (h : storesKey p = some k) :
    ∃ d next, p = .op (.remember d k) next := by
  cases p with
  | op o next =>
      cases o with
      | remember d k' =>
          obtain rfl := Option.some.inj h
          exact ⟨d, next, rfl⟩
      | _ => cases h
  | _ => cases h

/-- The user accepts the fingerprint that is shown, and the key behind
it is stored. -/
theorem run_means_click : ∃ past d k next s,
    Run consoleSystem (run plainSodium master) console past (.op (.remember d k) next) s ∧
      approvals past = ["040404"] ∧ MeantOp plainSodium master (.remember d k) past := by
  obtain ⟨past, p, s, hRun, hCheck⟩ := consolePlayer.exists_run (run plainSodium master) console
    promptAnswerCues (fun c => (storesKey c.prog).isSome && decide (Current c.past) &&
      (approvals c.past == ["040404"])) (by decide +kernel)
  simp only [Bool.and_eq_true, decide_eq_true_eq, beq_iff_eq] at hCheck
  obtain ⟨⟨hStores, hCurrent⟩, hClick⟩ := hCheck
  obtain ⟨k, hKey⟩ := Option.isSome_iff_exists.mp hStores
  obtain ⟨d, next, rfl⟩ := storesKey_some hKey
  exact ⟨past, d, k, next, s, hRun, hClick, run_means hRun hCurrent⟩

/-- A click that has shown "040404" stores the key of another device. -/
theorem run_stores_unmeant : ∃ past d k next s,
    Run consoleSystem (run plainSodium master) console past (.op (.remember d k) next) s ∧
      ¬ MeantOp plainSodium master (.remember d k) past := by
  obtain ⟨past, p, s, hRun, hCheck⟩ := consolePlayer.exists_run (run plainSodium master) console
    lateAnswerCues (fun c => (approvals c.past == ["040404"]) && (storesKey c.prog).any fun k =>
      computeFingerprint plainSodium k master.ownStatic.publicKey != "040404") (by decide +kernel)
  simp only [Bool.and_eq_true, beq_iff_eq] at hCheck
  obtain ⟨hClick, hStores⟩ := hCheck
  cases hKey : storesKey p with
  | none =>
      rw [hKey] at hStores
      cases hStores
  | some k =>
      rw [hKey] at hStores
      obtain ⟨d, next, rfl⟩ := storesKey_some hKey
      refine ⟨past, d, k, next, s, hRun, fun hMeant => ?_⟩
      have hSame := hMeant "040404" (hClick ▸ List.mem_singleton_self _)
      simp only [Option.any_some, bne_iff_ne, ne_eq] at hStores
      exact hStores hSame.symm

end Instance

end NoCapKVM.Discovery.StaleApproval
