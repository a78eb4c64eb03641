import NoCapKVM.Discovery.Paths
import NoCapKVM.Discovery.PlainSodium

/-! When a key that the Slave has stored for a device stays in force during an
attempt to connect to it. -/
namespace NoCapKVM.Discovery.TrustPinning

open Thread TcpClient

/-- During an attempt the client may be stopped. Nobody else edits the
trust store. -/
def onlyStop : Action → Prop
  | .stop => True
  | _ => False

section

variable (d : UInt64) (K : Key32 UInt8)

/-- Every Noise IK run so far was started against the key `K`. -/
def OnlyIkWith (past : List ConnLabel) : Prop :=
  ∀ k, Label.did (.remark (.ikStarts k)) () ∈ past → k = K

/-- The key stored for `d` is `K`, and `Connected` was published for `d` only
after Noise IK runs against `K`. -/
def Pinned (past : List ConnLabel) (s : World) : Prop :=
  s.knownPeers.getPubkey d = some K ∧
  ∀ newer info older, past = newer ++ .did (.assignStatus info) () :: older →
    info.state = .connected → info.peerDeviceId = d → OnlyIkWith K older

/-- The peer claims the id `d`, asks for pairing, presents a key other than
`K`, and declares the pairing approved. -/
def Overrides (stream : List UInt8) : Prop :=
  ∃ (id : Bytes UInt8 8) (flag : UInt8) (k : Key32 UInt8) (rest : List UInt8),
    decodeDeviceId id = d ∧ flag ≠ 0 ∧ k ≠ K ∧
    stream = id.val ++ (flag :: (k.val ++ kPairingApproved :: rest))

/-- Where an operation keeps `d` pinned. -/
def ok : Op → Assertion Op Ans Action World
  | .remember deviceId pubkey, _, _ => deviceId = d → pubkey = K
  | .assignStatus info, past, _ =>
      info.state = .connected → info.peerDeviceId = d → OnlyIkWith K past
  | _, _, _ => True

end

variable {na : Sodium UInt8} {c : TcpClient} {d : UInt64} {K : Key32 UInt8} {α : Type}

/-- Operations that are allowed anywhere. -/
def IsHarmless : Op → Prop
  | .remember .. => False
  | .assignStatus info => info.state ≠ .connected
  | _ => True

/-- Most operations neither store a key, nor begin a key exchange, nor publish
a connection. -/
theorem ok_of_harmless {o : Op} (h : IsHarmless o) (past : List ConnLabel) (s : World) :
    ok d K o past s := by
  cases o <;> simp_all [ok, IsHarmless]

/-- Nothing can go wrong any more. -/
theorem harmless_safe {p : ConnProg α} (h : p.Uses IsHarmless) (past : List ConnLabel) (s : World) :
    Safe (connSystem onlyStop) (ok d K) p (fun _ _ _ => True) past s :=
  Safe.frame (fun _ _ => True) (fun _ _ _ _ _ _ => trivial) (fun _ past s hC _ => ok_of_harmless hC past s)
    (fun _ _ _ _ _ _ _ _ => trivial) h trivial

/-- A session publishes only what it was begun with. -/
theorem harmless_of_session {o : Op} (h : IsSessionOp o) : IsHarmless o := by
  cases o <;> simp_all [IsHarmless, IsSessionOp]

/-- The transfers of a handshake change nothing that is stored. -/
theorem harmless_of_transfer {o : Op} (h : IsTransfer o) : IsHarmless o := by
  cases o <;> simp_all [IsHarmless, IsTransfer]

/-- The calls of other threads begin no key exchange. -/
theorem onlyIkWith_env {past : List ConnLabel} {a : Action} :
    OnlyIkWith K (.env a :: past) ↔ OnlyIkWith K past := by
  simp [OnlyIkWith]

/-- A session publishes the device that its key exchange was with. -/
theorem session_safe {peerDeviceId : UInt64} {ik : IkResult UInt8} {past : List ConnLabel}
    {s : World} (h : peerDeviceId = d → OnlyIkWith K past) :
    Safe (connSystem onlyStop) (ok d K) (session c peerDeviceId ik) (fun _ _ _ => True) past s := by
  refine .op (fun past _ => peerDeviceId = d → OnlyIkWith K past) ?_ h ?_ ?_
  · intro past s a s' hPast _ hD
    exact onlyIkWith_env.mpr (hPast hD)
  · intro past s hPast _ hD
    exact hPast hD
  · intro past s _ s' _ _
    apply harmless_safe
    have hRound := fun x => (sessionRound_uses c x).mono fun _ => harmless_of_session
    simp [IsHarmless, hRound]

/-- What is left of the peer's stream, with `d` still stored and no
IK run begun. -/
def Before (d : UInt64) (K : Key32 UInt8) (stream : List UInt8) : Assertion Op Ans Action World :=
  fun past s => s.incoming = stream ∧ s.knownPeers.getPubkey d = some K ∧
    ∀ k, Label.did (.remark (.ikStarts k)) () ∉ past

/-- Other threads may stop the client, and they leave its store and its
stream alone. -/
theorem before_stable (stream : List UInt8) : Stable (connSystem onlyStop) (Before d K stream) := by
  rintro past s a s' ⟨hStream, hStored, hNone⟩ ⟨hAllowed, rfl⟩
  cases a with
  | stop => exact ⟨hStream, hStored, by simpa using hNone⟩
  | _ => cases hAllowed

/-- Operations that take nothing from the peer and do not look at the
trust store. -/
def IsPlain : Op → Prop
  | .now | .sendAll .. | .createTcpSocket | .connect .. | .updateStatus _ => True
  | .assignStatus info => info.state ≠ .connected
  | _ => False

/-- Operations that read nothing leave the rest of the stream to be read. -/
theorem before_plain {o : Op} {r : Ans o} {stream : List UInt8} {past : List ConnLabel} {s s' : World}
    (hPlain : IsPlain o) (h : Before d K stream past s) (hExec : World.exec o s r s') :
    Before d K stream (.did o r :: past) s' := by
  obtain ⟨hStream, hStored, hNone⟩ := h
  have hKept : s'.incoming = s.incoming := by
    cases o with
    | now =>
        obtain ⟨-, rfl⟩ := hExec
        rfl
    | sendAll | createTcpSocket | connect | updateStatus | assignStatus =>
        obtain rfl := hExec
        rfl
    | _ => exact hPlain.elim
  refine ⟨hKept.trans hStream, ?_, ?_⟩
  · rw [World.exec_knownPeers hExec fun _ _ hRemember => by subst hRemember; exact hPlain]
    exact hStored
  · intro k hMem
    rcases List.mem_cons.mp hMem with hEq | hBefore
    · cases hEq
      exact hPlain
    · exact hNone k hBefore

theorem plain_safe {o : Op} {next : Ans o → ConnProg α} {Q : α → Assertion Op Ans Action World}
    {stream : List UInt8} {past : List ConnLabel} {s : World} (hPlain : IsPlain o)
    (h : Before d K stream past s)
    (hNext : ∀ r past s, Before d K stream past s →
      Safe (connSystem onlyStop) (ok d K) (next r) Q past s) :
    Safe (connSystem onlyStop) (ok d K) (.op o next) Q past s := by
  refine .op (Before d K stream) (before_stable stream) h ?_ ?_
  · intro past s _
    cases o with
    | assignStatus info => exact fun hConnected => absurd hConnected hPlain
    | remember => exact hPlain.elim
    | _ => trivial
  · intro past s r s' hBefore hExec
    exact hNext r _ _ (before_plain hPlain hBefore hExec)

/-- A receive takes the next bytes of the stream, or fails. -/
theorem recv_safe {phase : Phase} {len : Nat} {deadline : Time}
    {next : Option (Bytes UInt8 len) → ConnProg α} {Q : α → Assertion Op Ans Action World}
    {stream : List UInt8} {past : List ConnLabel} {s : World} (h : Before d K stream past s)
    (hNone : ∀ past s, Safe (connSystem onlyStop) (ok d K) (next none) Q past s)
    (hSome : ∀ data rest past s, stream = data.val ++ rest → Before d K rest past s →
      Safe (connSystem onlyStop) (ok d K) (next (some data)) Q past s) :
    Safe (connSystem onlyStop) (ok d K) (.op (.recvAll phase len deadline) next) Q past s := by
  refine .op (Before d K stream) (before_stable stream) h (fun _ _ _ => trivial) ?_
  rintro past s r s' ⟨hStream, hStored, hNoIk⟩ hExec
  rcases hExec with ⟨data, rest, rfl, hData, rfl⟩ | ⟨rfl, -⟩
  · exact hSome data rest _ _ (hStream.symm.trans hData) ⟨rfl, hStored, by simpa using hNoIk⟩
  · exact hNone _ _

/-- A message is sent and one is received. -/
theorem exchange_safe {phase : Phase} {data : List UInt8} {len : Nat} {deadline : Time}
    {next : Option (Bytes UInt8 len) → ConnProg α} {Q : α → Assertion Op Ans Action World}
    {stream : List UInt8} {past : List ConnLabel} {s : World} (h : Before d K stream past s)
    (hNone : ∀ past s, Safe (connSystem onlyStop) (ok d K) (next none) Q past s)
    (hSome : ∀ data rest past s, stream = data.val ++ rest → Before d K rest past s →
      Safe (connSystem onlyStop) (ok d K) (next (some data)) Q past s) :
    Safe (connSystem onlyStop) (ok d K) ((exchange phase data len deadline).bind next) Q past s := by
  refine plain_safe trivial h fun sent past s h => ?_
  cases sent with
  | false => exact hNone past s
  | true => exact recv_safe h hNone hSome

/-- A client that gives up leaves the key as it was. -/
theorem abandon_safe {β : Type} {outcome : AttemptOutcome} {past : List ConnLabel} {s : World}
    {Q : Except AttemptOutcome β → Assertion Op Ans Action World}
    (hQ : ∀ past s, Q (.error outcome) past s) :
    Safe (connSystem onlyStop) (ok d K) (abandon outcome) Q past s := by
  refine Safe.op_any (fun _ _ => trivial) (fun _ past s => ?_) past s
  refine Safe.op_any (fun _ _ => trivial) (fun _ past s => ?_) past s
  exact .ret (fun _ _ _ _ _ _ => hQ _ _) (hQ _ _)

/-- What a successful handshake guarantees. -/
def Admits (d : UInt64) (K : Key32 UInt8) :
    Except AttemptOutcome (UInt64 × IkResult UInt8) → Assertion Op Ans Action World
  | .error _, _, _ => True
  | .ok (peerDeviceId, _), past, _ => peerDeviceId = d → OnlyIkWith K past

/-- What a handshake guarantees does not depend on what happens later. -/
theorem admits_stable (e : Except AttemptOutcome (UInt64 × IkResult UInt8)) :
    Stable (connSystem onlyStop) (Admits d K e) := by
  intro past s a s' h _
  cases e with
  | error outcome => exact trivial
  | ok result => exact fun hD => onlyIkWith_env.mpr (h hD)

/-- A key exchange with the device goes against the key that is
stored for it. -/
theorem initiateIk_safe {peerDeviceId : UInt64} {rs : Key32 UInt8} {stream : List UInt8}
    {past : List ConnLabel} {s : World} (hRs : peerDeviceId = d → rs = K)
    (h : Before d K stream past s) :
    Safe (connSystem onlyStop) (ok d K) (initiateIk na c peerDeviceId rs) (Admits d K) past s := by
  have hStable : Stable (connSystem onlyStop)
      (fun past _ => peerDeviceId = d → OnlyIkWith K past) :=
    fun _ _ _ _ hPast _ hD => onlyIkWith_env.mpr (hPast hD)
  refine plain_safe trivial h fun now past s h => ?_
  refine .op (Before d K stream) (before_stable stream) h (fun _ _ _ => trivial) ?_
  rintro past s _ s' ⟨-, -, hNone⟩ -
  have hOnly : peerDeviceId = d →
      OnlyIkWith K (.did (.remark (.ikStarts rs)) () :: past : List ConnLabel) := by
    intro hD k hk
    simp only [List.mem_cons, Label.did.injEq, Op.remark.injEq, Remark.ikStarts.injEq] at hk
    rcases hk with ⟨rfl, -⟩ | hk
    · exact hRs hD
    · exact absurd hk (hNone k)
  simp only [Prog.bind_def, Prog.ret_bind]
  -- The IK messages themselves add no remark.
  refine Safe.bind ((Safe.frame (fun past _ => peerDeviceId = d → OnlyIkWith K past) hStable
    (C := IsTransfer) ?_ ?_ (interp_ikOp_uses _ _ _ _) hOnly).mono ?_)
  · intro o past s hC _
    exact ok_of_harmless (harmless_of_transfer hC) past s
  · intro o past s r s' hC hPast _ hD k hk
    refine hPast hD k ?_
    cases o <;> simp_all [IsTransfer]
  · intro result past s hPast
    cases result with
    | none => exact abandon_safe fun _ _ => trivial
    | some ik => exact .ret (admits_stable _) hPast

/-- Pairing yields the key `K` for `d`, unless the peer presents another one
and declares it approved. -/
theorem pair_safe {peerDeviceId : UInt64} {stream : List UInt8} {past : List ConnLabel} {s : World}
    (hKey : peerDeviceId = d → ∀ (k : Key32 UInt8) rest,
      stream = k.val ++ kPairingApproved :: rest → k = K)
    {Q : α → Assertion Op Ans Action World} {next : Except AttemptOutcome (Key32 UInt8) → ConnProg α}
    (h : Before d K stream past s)
    (hError : ∀ outcome past s, Safe (connSystem onlyStop) (ok d K) (next (.error outcome)) Q past s)
    (hOk : ∀ rs rest past s, (peerDeviceId = d → rs = K) → Before d K rest past s →
      Safe (connSystem onlyStop) (ok d K) (next (.ok rs)) Q past s) :
    Safe (connSystem onlyStop) (ok d K) ((pair na c peerDeviceId).bind next) Q past s := by
  refine plain_safe trivial h fun now past s h => ?_
  simp only [Prog.bind_def, Prog.ret_bind, Prog.bind_assoc]
  refine exchange_safe h (fun past s => .bind (abandon_safe fun _ _ => hError _ _ _)) ?_
  intro k rest past s hStream h
  refine plain_safe (by simp [IsPlain]) h fun _ past s h => ?_
  refine plain_safe trivial h fun now past s h => ?_
  refine recv_safe h (fun past s => .bind (abandon_safe fun _ _ => hError _ _ _)) ?_
  intro decisionByte rest' past s hRest h
  by_cases hDecision : decisionByte.only = kPairingApproved
  · have hKeyK : peerDeviceId = d → k = K := by
      intro hD
      refine hKey hD k rest' ?_
      rw [hStream, hRest, ← hDecision, Bytes.only_cons]
    simp only [Prog.ret_bind, hDecision, ne_eq, not_true_eq_false, if_false]
    refine .op (Before d K rest') (before_stable rest') h (fun _ _ _ hD => hKeyK hD) ?_
    rintro past s _ s' ⟨hIncoming, hStored, hNone⟩ rfl
    refine hOk k rest' _ _ hKeyK ⟨hIncoming, ?_, by simpa using hNone⟩
    rw [KnownPeers.getPubkey_remember]
    split
    · next hD => rw [hKeyK hD.symm]
    · exact hStored
  · simp only [Prog.ret_bind, hDecision, ne_eq, not_false_eq_true, if_true]
    exact .bind (abandon_safe fun _ _ => hError _ _ _)

/-- A lookup of the device finds the key that is stored for it. -/
theorem lookup_safe {deviceId : UInt64} {next : Option (Key32 UInt8) → ConnProg α}
    {Q : α → Assertion Op Ans Action World} {stream : List UInt8} {past : List ConnLabel} {s : World}
    (h : Before d K stream past s)
    (hNext : ∀ r past s, (deviceId = d → r = some K) → Before d K stream past s →
      Safe (connSystem onlyStop) (ok d K) (next r) Q past s) :
    Safe (connSystem onlyStop) (ok d K) (.op (.getPubkey deviceId) next) Q past s := by
  refine .op (Before d K stream) (before_stable stream) h (fun _ _ _ => trivial) ?_
  rintro past s r s' ⟨hStream, hStored, hNone⟩ ⟨rfl, rfl⟩
  refine hNext _ _ _ ?_ ⟨hStream, hStored, by simpa using hNone⟩
  rintro rfl
  exact hStored

/-- A handshake in which the peer overrides nothing keeps the key in force in
every branch. -/
theorem handshake_safe {stream : List UInt8} (hNo : ¬ Overrides d K stream) {past : List ConnLabel}
    {s : World} (h : Before d K stream past s) :
    Safe (connSystem onlyStop) (ok d K) (handshake na c) (Admits d K) past s := by
  refine plain_safe trivial h fun now past s h => ?_
  simp only [Prog.bind_def, Prog.ret_bind]
  refine exchange_safe h (fun past s => abandon_safe fun _ _ => trivial) ?_
  intro id afterId past s hStream h
  refine lookup_safe h fun rs past s hRs h => ?_
  refine plain_safe trivial h fun now past s h => ?_
  simp only [Prog.ret_bind]
  refine exchange_safe h (fun past s => abandon_safe fun _ _ => trivial) ?_
  intro flag afterFlag past s hAfterId h
  by_cases hDirect : ∃ k, rs = some k ∧ flag.only = 0
  · obtain ⟨k, rfl, hFlag⟩ := hDirect
    simp only [hFlag, bne_self_eq_false]
    exact initiateIk_safe (fun hD => Option.some.inj (hRs hD)) h
  · have hPair : Safe (connSystem onlyStop) (ok d K)
        ((pair na c (decodeDeviceId id)).bind (initiateAfter na c (decodeDeviceId id))) (Admits d K) past s := by
      refine pair_safe ?_ h (fun outcome past s => .ret (admits_stable _) trivial)
        fun rs rest past s hKey h => initiateIk_safe hKey h
      -- Device `d` is stored, so only the peer can have asked for this pairing.
      intro hD k rest hRest
      by_contra hK
      refine hNo ⟨id, flag.only, k, rest, hD, ?_, hK, ?_⟩
      · exact fun hFlag => hDirect ⟨K, hRs hD, hFlag⟩
      · rw [hStream, hAfterId, hRest, Bytes.only_cons]
    cases rs with
    | none => exact hPair
    | some k =>
        have hFlag : (flag.only != 0) = true := by
          simpa using fun hFlag => hDirect ⟨k, rfl, hFlag⟩
        simp only [hFlag]
        exact hPair

/-- So does a whole attempt. -/
theorem runOnce_safe {stream : List UInt8} (hNo : ¬ Overrides d K stream) {past : List ConnLabel}
    {s : World} (h : Before d K stream past s) :
    Safe (connSystem onlyStop) (ok d K) (runOnce na c) (fun _ _ _ => True) past s := by
  have hEnd : ∀ {p : ConnProg AttemptOutcome}, p.Uses IsHarmless → ∀ past s, Before d K stream past s →
      Safe (connSystem onlyStop) (ok d K) p (fun _ _ _ => True) past s :=
    fun hP past s _ => harmless_safe hP past s
  apply runOnce_cases na c (C := IsPlain)
    (M := fun p => ∀ past s, Before d K stream past s → Safe (connSystem onlyStop) (ok d K) p (fun _ _ _ => True) past s)
    (fun o next hO hNext past s h => plain_safe hO h hNext) (by simp [IsPlain]) trivial trivial
  · exact hEnd (by simp [IsHarmless])
  · exact hEnd (by simp [IsHarmless])
  · intro past s h
    refine Safe.bind ((handshake_safe hNo h).mono ?_)
    intro e past s hAdmits
    cases e with
    | error outcome => exact .ret (fun _ _ _ _ _ _ => trivial) trivial
    | ok result => exact session_safe hAdmits
  · exact h

/-- Nobody else edits the store during an attempt. -/
theorem pinned_stable : Stable (connSystem onlyStop) (Pinned d K) := by
  rintro past s a s' ⟨hStored, hConnected⟩ ⟨hAllowed, rfl⟩
  cases a with
  | stop =>
      refine ⟨hStored, ?_⟩
      intro newer info older hPast
      cases newer with
      | nil => cases hPast
      | cons head rest =>
          simp only [List.cons_append, List.cons.injEq] at hPast
          exact hConnected rest info older hPast.2
  | _ => cases hAllowed

/-- One allowed operation keeps `d` pinned. -/
theorem pinned_step {o : Op} {past : List ConnLabel} {s s' : World} {r : Ans o}
    (hOk : ok d K o past s) (h : Pinned d K past s) (hExec : World.exec o s r s') :
    Pinned d K (.did o r :: past) s' := by
  constructor
  · by_cases hRemember : ∃ deviceId pubkey, o = .remember deviceId pubkey
    · obtain ⟨deviceId, pubkey, rfl⟩ := hRemember
      obtain rfl := hExec
      rw [KnownPeers.getPubkey_remember]
      split
      · next hD => rw [hOk hD.symm]
      · exact h.1
    · rw [World.exec_knownPeers hExec fun deviceId pubkey hO => hRemember ⟨deviceId, pubkey, hO⟩]
      exact h.1
  · intro newer info older hPast hState hPeer
    cases newer with
    | nil =>
        simp only [List.nil_append, List.cons.injEq] at hPast
        obtain ⟨hLabel, rfl⟩ := hPast
        cases hLabel
        exact hOk hState hPeer
    | cons head rest =>
        simp only [List.cons_append, List.cons.injEq] at hPast
        exact h.2 rest info older hPast.2 hState hPeer

/-- Such a peer has its key stored for `d`. -/
theorem overridden_run {w : World} (hStored : w.knownPeers.getPubkey d = some K) (id : Bytes UInt8 8)
    (flag : UInt8) (k : Key32 UInt8) (rest : List UInt8) (hId : decodeDeviceId id = d)
    (hFlag : flag ≠ 0)
    (hStream : w.incoming = id.val ++ (flag :: (k.val ++ kPairingApproved :: rest))) :
    ∃ past p s, Run (connSystem onlyStop) (runOnce na c) w past p s ∧
      s.knownPeers.getPubkey d = some k := by
  have hStart : Gets onlyStop (runOnce na c) w (runOnce na c) _ := .begins hStream
  have hAssigned := hStart.free trivial ()
  have hCreated := hAssigned.free trivial true
  have hConnected := hCreated.free trivial true
  simp only [Prog.bind_def, Prog.ret_bind, Bool.not_true, Bool.false_eq_true, if_false, handshake,
    Prog.perform_bind, Prog.op_bind, Prog.bind_assoc] at hConnected
  obtain ⟨t₁, hNow⟩ := hConnected.now
  have hIds := hNow.exchange id _
  simp only [Prog.op_bind, Prog.bind_assoc] at hIds
  have hKnown := hIds.lookup
  rw [hId, hStored] at hKnown
  obtain ⟨t₂, hNow⟩ := hKnown.now
  have hFlags := Gets.exchange ⟨[flag], rfl⟩ (k.val ++ kPairingApproved :: rest) hNow
  have hWants : (Bytes.only ⟨[flag], rfl⟩ != 0) = true := by simpa [Bytes.only] using hFlag
  simp only [hWants, pair, Prog.bind_def, Prog.perform_bind, Prog.op_bind, Prog.bind_assoc] at hFlags
  obtain ⟨t₃, hNow⟩ := hFlags.now
  have hKeys := Gets.exchange k (kPairingApproved :: rest) hNow
  have hShown := hKeys.free trivial ()
  obtain ⟨t₄, hNow⟩ := hShown.now
  have hDecided := Gets.recv ⟨[kPairingApproved], rfl⟩ rest hNow
  have hApproved : Bytes.only ⟨[kPairingApproved], rfl⟩ = kPairingApproved := rfl
  simp only [Prog.op_bind, hApproved, ne_eq, not_true_eq_false, if_false] at hDecided
  obtain ⟨past, s, hRun, -⟩ := hDecided
  have hRemembered : World.exec (.remember d k) s ()
      { s with knownPeers := s.knownPeers.remember d k } := rfl
  have hLast := hRun.did (r := ()) hRemembered
  exact ⟨_, _, _, hLast, by simp⟩

/-- An attempt leaves `d` pinned to its stored key, whatever the peer sends,
exactly if the peer does not go through a pairing with another key. -/
theorem runOnce_pinned_iff (w : World) (hStored : w.knownPeers.getPubkey d = some K) :
    (∀ past p s, Run (connSystem onlyStop) (runOnce na c) w past p s → Pinned d K past s) ↔
      ¬ Overrides d K w.incoming := by
  constructor
  · rintro hPinned ⟨id, flag, k, rest, hId, hFlag, hK, hStream⟩
    obtain ⟨past, p, s, hRun, hNow⟩ := overridden_run hStored _ _ _ _ hId hFlag hStream
    have hStill := (hPinned past p s hRun).1
    rw [hNow] at hStill
    exact hK (Option.some.inj hStill)
  · intro hNo past p s hRun
    have hSafe : Safe (connSystem onlyStop) (ok d K) (runOnce na c) (fun _ _ _ => True) [] w :=
      runOnce_safe hNo ⟨rfl, hStored, by simp⟩
    refine hSafe.invariant (Pinned d K) pinned_stable ?_ ⟨hStored, by simp⟩ hRun
    intro o past s r s' hOk h hExec
    exact pinned_step hOk h hExec

section Instance

def storedKey : Key32 UInt8 := Bytes.fill 32 1

def otherKey : Key32 UInt8 := Bytes.fill 32 2

/-- A Slave that knows one device, number 7. -/
def slave : TcpClient where
  ownDeviceId := 1
  ownStatic := plainKeypair 9
  peerIp := "192.168.0.2"
  peerPort := 4000
  giveUpAfter := seconds 10

def slaveWorld (incoming : List UInt8) : World :=
  World.fresh ⟨fun d => if d = 7 then some storedKey else none,
    fun d => if d = 7 then some storedKey else none⟩ incoming

/-- Device 7 asks for pairing, presents another key, and approves it. -/
def overridingStream : List UInt8 :=
  (encodeDeviceId 7).val ++ (1 :: (otherKey.val ++ [kPairingApproved]))

/-- Device 7 asks for pairing, presents another key, and rejects it. -/
def decliningStream : List UInt8 :=
  (encodeDeviceId 7).val ++ (1 :: (otherKey.val ++ [kPairingRejected]))

/-- A stream that ends in a rejection overrides nothing, although it presents
another key. -/
theorem not_overrides_declining : ¬ Overrides 7 storedKey decliningStream := by
  rintro ⟨id, flag, k, rest, -, -, -, hStream⟩
  have hAfterId := (List.append_inj hStream ((encodeDeviceId 7).property.trans id.property.symm)).2
  have hAfterFlag := (List.cons.inj hAfterId).2
  have hAfterKey := (List.append_inj hAfterFlag (otherKey.property.trans k.property.symm)).2
  exact absurd (List.cons.inj hAfterKey).1 (by decide)

/-- A peer that claims to be device 7 and presents another key changes
nothing, as long as it does not approve the pairing itself. -/
theorem runOnce_pinned_iff_declining : ¬ Overrides 7 storedKey decliningStream ∧ ∀ past p s,
    Run (connSystem onlyStop) (runOnce plainSodium slave) (slaveWorld decliningStream) past p s →
      Pinned 7 storedKey past s :=
  ⟨not_overrides_declining, (runOnce_pinned_iff (slaveWorld decliningStream) rfl).mpr not_overrides_declining⟩

/-- The stored key of device 7 is replaced by the one that it presents,
because it declares the pairing approved. -/
theorem runOnce_stores_other_key :
    (slaveWorld overridingStream).knownPeers.getPubkey 7 = some storedKey ∧
    ∃ past p s, Run (connSystem onlyStop) (runOnce plainSodium slave) (slaveWorld overridingStream)
      past p s ∧ s.knownPeers.getPubkey 7 = some otherKey ∧ ¬ Pinned 7 storedKey past s := by
  refine ⟨rfl, ?_⟩
  obtain ⟨past, p, s, hRun, hKey⟩ : ∃ past p s, Run (connSystem onlyStop) (runOnce plainSodium slave)
      (slaveWorld overridingStream) past p s ∧ s.knownPeers.getPubkey 7 = some otherKey :=
    overridden_run rfl (encodeDeviceId 7) 1 otherKey [] (decodeDeviceId_encodeDeviceId 7) (by decide) rfl
  refine ⟨past, p, s, hRun, hKey, fun hPinned => ?_⟩
  have hSame := hPinned.1
  rw [hKey] at hSame
  exact absurd (Option.some.inj hSame) (by decide)

end Instance

end NoCapKVM.Discovery.TrustPinning
