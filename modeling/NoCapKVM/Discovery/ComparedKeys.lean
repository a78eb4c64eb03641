import NoCapKVM.Discovery.Admission
import NoCapKVM.Discovery.AttemptPhases
import NoCapKVM.Discovery.TrustChanges

/-! `discovery/pairing.cpp`: what equal fingerprints on both displays say of the keys that
the two sides store, whatever is on the network between them. -/
namespace NoCapKVM.Discovery.ComparedKeys

open Thread Admission

/-- A pairing with `d` is on display under this fingerprint. -/
def Showing (d : UInt64) (fingerprint : String) : Assertion Op Ans Action World :=
  fun _ s => s.status.state = .pairing ∧ s.status.peerDeviceId = d ∧ s.status.pairingFingerprint = fingerprint

/-- A key is stored only while the display shows its fingerprint. -/
def compared (fingerprint : Key32 UInt8 → String) : Op → Assertion Op Ans Action World
  | .remember d k => Showing d (fingerprint k)
  | _ => fun _ _ => True

variable {na : Sodium UInt8} {fingerprint : Key32 UInt8 → String} {shown : String} {d : UInt64} {α : Type}
  {past : List ConnLabel} {s : World}

/-- The status is written by the thread alone, so a request stays on display
until the thread takes it off. -/
theorem showing_stable : Stable sys (Showing d shown) := by
  rintro past s a s' h ⟨-, rfl⟩
  unfold Showing
  rw [act_status]
  exact h

/-- Operations that store no key. -/
def KeepsStore : Op → Prop
  | .remember .. => False
  | _ => True

/-- Operations that neither store a key nor begin a key
exchange store none. -/
theorem keepsStore_of_quiet {o : Op} (hO : TrustChanges.IsQuiet o) : KeepsStore o := by
  cases o with
  | remember d k => exact hO.elim
  | _ => trivial

/-- The condition is about stores only. -/
theorem compared_of_quiet {o : Op} (hO : KeepsStore o) (past : List ConnLabel) (s : World) :
    compared fingerprint o past s := by
  cases o with
  | remember d k => exact hO.elim
  | _ => trivial

/-- A program without stores is safe from any state. -/
theorem quiet_safe {p : ConnProg α} (hP : p.Uses KeepsStore) (past : List ConnLabel) (s : World) :
    Safe sys (compared fingerprint) p (fun _ _ _ => True) past s :=
  Safe.frame (fun _ _ => True) (fun _ _ _ _ _ _ => trivial) (fun _ past s hO _ => compared_of_quiet hO past s)
    (fun _ _ _ _ _ _ _ _ => trivial) hP trivial

theorem quiet_op {o : Op} {next : Ans o → ConnProg α} {Q : α → Assertion Op Ans Action World} (hO : KeepsStore o)
    (hNext : ∀ r past s, Safe sys (compared fingerprint) (next r) Q past s) :
    Safe sys (compared fingerprint) (.op o next) Q past s :=
  Safe.op_any (compared_of_quiet hO) hNext past s

/-- What happens while a request is on display. -/
def KeepsDisplay : Op → Prop
  | .remember .. | .assignStatus _ | .updateStatus _ => False
  | _ => True

/-- While a request is on display, the operations of the wait
leave it there. -/
theorem showing_exec {o : Op} (hO : KeepsDisplay o) {past' : List ConnLabel} {s' : World} {r : Ans o}
    (h : Showing d shown past s) (hExec : World.exec o s r s') : Showing d shown past' s' := by
  have hAssign : ∀ info, o ≠ .assignStatus info := by
    rintro info rfl
    exact hO
  have hUpdate : ∀ u, o ≠ .updateStatus u := by
    rintro u rfl
    exact hO
  unfold Showing
  rw [exec_status hExec hAssign hUpdate]
  exact h

/-- They store no key either. -/
theorem quiet_of_keeps {o : Op} (hO : KeepsDisplay o) : KeepsStore o := by
  cases o with
  | remember d k => exact hO.elim
  | _ => trivial

/-- So a whole wait for an answer leaves the request on display. -/
theorem wait_safe {p : ConnProg α} (hP : p.Uses KeepsDisplay) (h : Showing d shown past s) :
    Safe sys (compared fingerprint) p (fun _ => Showing d shown) past s :=
  Safe.frame (Showing d shown) showing_stable (fun _ past s hO _ => compared_of_quiet (quiet_of_keeps hO) past s)
    (fun _ _ _ _ _ hO h hExec => showing_exec hO h hExec) hP h

theorem wait_op {o : Op} {next : Ans o → ConnProg α} {Q : α → Assertion Op Ans Action World} (hO : KeepsDisplay o)
    (h : Showing d shown past s)
    (hNext : ∀ r past s, Showing d shown past s → Safe sys (compared fingerprint) (next r) Q past s) :
    Safe sys (compared fingerprint) (.op o next) Q past s := by
  apply Safe.op (Showing d shown) showing_stable h (fun past s _ => compared_of_quiet (quiet_of_keeps hO) past s)
  intro past s r s' h hExec
  exact hNext r _ s' (showing_exec hO h hExec)

/-- A request goes on display. -/
theorem show_op {info : ConnectionInfo} {next : Unit → ConnProg α} {Q : α → Assertion Op Ans Action World}
    (hState : info.state = .pairing)
    (hNext : ∀ past s, Showing info.peerDeviceId info.pairingFingerprint past s →
      Safe sys (compared fingerprint) (next ()) Q past s) :
    Safe sys (compared fingerprint) (.op (.assignStatus info) next) Q past s := by
  refine Safe.op (fun _ _ => True) (fun _ _ _ _ _ _ => trivial) trivial (fun _ _ _ => trivial) ?_
  intro past s _ s' _ hExec
  obtain rfl := hExec
  exact hNext _ _ ⟨hState, rfl, rfl⟩

/-- The key whose fingerprint is on display is stored. -/
theorem store_op {k : Key32 UInt8} {next : Unit → ConnProg α} (h : Showing d (fingerprint k) past s)
    (hNext : ∀ past s, Safe sys (compared fingerprint) (next ()) (fun _ _ _ => True) past s) :
    Safe sys (compared fingerprint) (.op (.remember d k) next) (fun _ _ _ => True) past s :=
  Safe.op (Showing d (fingerprint k)) showing_stable h (fun _ _ h => h) fun _ _ _ _ _ _ => hNext _ _

/-- An exchange of bytes stores nothing, whatever it brings. -/
theorem exchange_safe {phase : Phase} {sent : List UInt8} {len : Nat} {deadline : Time}
    {next : Option (Bytes UInt8 len) → ConnProg α} {Q : α → Assertion Op Ans Action World}
    (hNext : ∀ r past s, Safe sys (compared fingerprint) (next r) Q past s) :
    Safe sys (compared fingerprint) ((exchange phase sent len deadline).bind next) Q past s := by
  refine quiet_op trivial fun ok past s => ?_
  cases ok with
  | false => exact hNext none past s
  | true => exact quiet_op trivial hNext

theorem ret_safe {a : α} : Safe sys (compared fingerprint) (.ret a) (fun _ _ _ => True) past s :=
  .ret (fun _ _ _ _ _ _ => trivial) trivial

section Client

open TcpClient

variable {c : TcpClient}

/-- The fingerprint that the client computes for a key. -/
abbrev clientPrint (na : Sodium UInt8) (c : TcpClient) (k : Key32 UInt8) : String :=
  computeFingerprint na c.ownStatic.publicKey k

/-- The client stores a key right after the wait in which its fingerprint was
on display. -/
theorem clientPair_safe (na : Sodium UInt8) (c : TcpClient) (d : UInt64) (past : List ConnLabel) (s : World) :
    Safe sys (compared (clientPrint na c)) (pair na c d) (fun _ _ _ => True) past s := by
  have hAbandon : ∀ outcome past s, Safe sys (compared (clientPrint na c))
      (abandon outcome : ConnProg (Except AttemptOutcome (Key32 UInt8))) (fun _ _ _ => True) past s :=
    fun outcome past s => quiet_safe (abandon_uses trivial trivial outcome) past s
  refine quiet_op trivial fun now past s => ?_
  simp only [Prog.bind_def, Prog.ret_bind]
  refine exchange_safe fun received past s => ?_
  cases received with
  | none => exact hAbandon _ past s
  | some k =>
      refine show_op rfl fun past s h => ?_
      refine wait_op trivial h fun now past s h => ?_
      refine wait_op trivial h fun decision past s h => ?_
      cases decision with
      | none => exact hAbandon _ past s
      | some decisionByte =>
          by_cases hByte : decisionByte.only = kPairingApproved
          · simp only [Prog.ret_bind, hByte, ne_eq, not_true_eq_false, if_false]
            exact store_op h fun past s => ret_safe
          · simp only [Prog.ret_bind, hByte, ne_eq, not_false_eq_true, if_true]
            exact hAbandon _ past s

/-- The key exchange of the client stores nothing. -/
theorem initiateIk_keeps (d : UInt64) (rs : Key32 UInt8) : (initiateIk na c d rs).Uses KeepsStore :=
  initiateIk_uses (fun _ o => (ikOp_uses o).mono fun _ h => keepsStore_of_quiet (TrustChanges.isQuiet_of_transfer h))
    trivial (fun _ => trivial) trivial trivial d rs

/-- A handshake of the client stores a key only in its pairing. -/
theorem clientHandshake_safe (past : List ConnLabel) (s : World) :
    Safe sys (compared (clientPrint na c)) (handshake na c) (fun _ _ _ => True) past s := by
  refine quiet_op trivial fun now past s => ?_
  simp only [Prog.bind_def, Prog.ret_bind]
  refine exchange_safe fun received past s => ?_
  cases received with
  | none => exact quiet_safe (abandon_uses trivial trivial _) past s
  | some id =>
      refine quiet_op trivial fun rs past s => ?_
      refine quiet_op trivial fun now past s => ?_
      simp only [Prog.ret_bind]
      refine exchange_safe fun flag past s => ?_
      cases flag with
      | none => exact quiet_safe (abandon_uses trivial trivial _) past s
      | some flag =>
          have hPair := pair_initiate_safe (clientPair_safe na c (decodeDeviceId id) past s)
            (fun _ _ _ _ => ret_safe) fun rs past s _ => quiet_safe (initiateIk_keeps _ rs) past s
          exact branch_cases na c _ rs (flag.only != 0)
            (P := (Safe sys (compared (clientPrint na c)) · (fun _ _ _ => True) past s)) hPair
            fun rs _ _ => quiet_safe (initiateIk_keeps _ rs) past s

/-- So does a whole attempt. -/
theorem runOnce_safe (past : List ConnLabel) (s : World) :
    Safe sys (compared (clientPrint na c)) (runOnce na c) (fun _ _ _ => True) past s := by
  apply runOnce_cases na c (C := KeepsStore)
    (M := fun p => ∀ past s, Safe sys (compared (clientPrint na c)) p (fun _ _ _ => True) past s)
    (fun o next hO hNext past s => quiet_op hO hNext) trivial trivial trivial
  · exact quiet_safe (by simp [KeepsStore])
  · exact quiet_safe (by simp [KeepsStore])
  · intro past s
    refine Safe.bind ((clientHandshake_safe past s).mono fun result past s _ => ?_)
    cases result with
    | error outcome => exact ret_safe
    | ok result => exact quiet_safe ((TrustChanges.session_uses _ _).mono fun _ => keepsStore_of_quiet) past s

/-- The waits between two attempts store nothing. -/
theorem quiet_of_waiting {o : Op} (hO : Discovery.IsWait o) : KeepsStore o := by
  cases o with
  | remember d k => exact hO.elim
  | _ => trivial

/-- In every run of the client's thread, each stored key is the one whose
fingerprint is on display. -/
theorem clientRun_safe (past : List ConnLabel) (s : World) :
    Safe sys (compared (clientPrint na c)) (run na c) (fun _ _ _ => True) past s := by
  refine quiet_op trivial fun now past s => ?_
  simp only [Prog.ret_bind]
  refine Safe.iterate (fun _ _ _ => True) (fun _ _ _ _ _ _ _ => trivial) (fun _ _ _ _ _ _ _ => trivial) trivial ?_
  intro x past s _
  have hRound : Safe sys (compared (clientPrint na c)) (runRound na c x) (fun _ _ _ => True) past s := by
    rw [runRound_eq]
    refine quiet_op trivial fun running past s => ?_
    cases running with
    | false => exact ret_safe
    | true =>
        refine Safe.bind ((runOnce_safe past s).mono fun outcome past s _ => ?_)
        exact quiet_safe ((afterAttempt_wait x outcome).mono fun _ => quiet_of_waiting) past s
  exact hRound.mono fun r _ _ _ => by cases r <;> trivial

end Client

section Server

open TcpServer

variable {m : TcpServer}

/-- The fingerprint that the server computes for a key. -/
abbrev serverPrint (na : Sodium UInt8) (m : TcpServer) (k : Key32 UInt8) : String :=
  computeFingerprint na k m.ownStatic.publicKey

/-- The wait on the user's decision. -/
theorem prompted_wait (approvalDeadline : Time) : (awaitDecision approvalDeadline).Uses KeepsDisplay := by
  refine ⟨fun _ => ⟨trivial, fun running => ?_⟩, fun _ => trivial⟩
  cases running with
  | false => exact trivial
  | true =>
      refine ⟨trivial, fun now => ?_⟩
      simp only [Prog.ret_bind]
      split
      · exact trivial
      · refine ⟨trivial, fun decision => ?_⟩
        simp only [Prog.ret_bind]
        split
        · exact trivial
        · exact ⟨trivial, fun _ => trivial⟩

/-- The server stores a key right after the answer of its user, with the
fingerprint of that key still on display. -/
theorem serverPair_safe (na : Sodium UInt8) (m : TcpServer) (ip : String) (d : UInt64) (past : List ConnLabel) (s : World) :
    Safe sys (compared (serverPrint na m)) (pair na m ip d) (fun _ _ _ => True) past s := by
  refine quiet_op trivial fun now past s => ?_
  simp only [Prog.bind_def, Prog.ret_bind]
  refine exchange_safe fun received past s => ?_
  cases received with
  | none => exact quiet_safe (drop_uses trivial) past s
  | some k =>
      refine Safe.bind (show_op rfl fun past s h => ?_)
      refine wait_op trivial h fun _ past s h => ?_
      refine wait_op trivial h fun start past s h => ?_
      refine (wait_safe (prompted_wait _) h).mono fun decision past s h => ?_
      by_cases hDecision : decision = .approved
      · simp only [hDecision, ne_eq, not_true_eq_false, if_false]
        exact wait_op trivial h fun _ past s h => store_op h fun past s => ret_safe
      · simp only [hDecision, ne_eq, not_false_eq_true, if_true]
        exact quiet_safe (by exact ⟨trivial, fun _ => reset_uses trivial trivial⟩) past s

/-- The key exchange of the server stores nothing. -/
theorem respondIk_keeps (d : UInt64) (k : Key32 UInt8) : (respondIk na m d k).Uses KeepsStore :=
  respondIk_uses (fun _ o => (ikOp_uses o).mono fun _ h => keepsStore_of_quiet (TrustChanges.isQuiet_of_transfer h))
    trivial (fun _ => trivial) trivial trivial d k

/-- A handshake of the server stores a key only in its pairing. -/
theorem serverHandshake_safe (ip : String) (past : List ConnLabel) (s : World) :
    Safe sys (compared (serverPrint na m)) (handshake na m ip) (fun _ _ _ => True) past s := by
  refine quiet_op trivial fun now past s => ?_
  simp only [Prog.bind_def, Prog.ret_bind]
  refine exchange_safe fun received past s => ?_
  cases received with
  | none => exact quiet_safe (drop_uses trivial) past s
  | some id =>
      refine quiet_op trivial fun stored past s => ?_
      refine quiet_op trivial fun now past s => ?_
      simp only [Prog.ret_bind]
      refine exchange_safe fun flag past s => ?_
      cases flag with
      | none => exact quiet_safe (drop_uses trivial) past s
      | some flag =>
          have hPair := pair_respond_safe (serverPair_safe na m ip (decodeDeviceId id) past s)
            (fun _ _ _ => ret_safe) fun k past s _ => quiet_safe (respondIk_keeps _ k) past s
          exact branch_cases na m ip _ stored (flag.only != 0)
            (P := (Safe sys (compared (serverPrint na m)) · (fun _ _ _ => True) past s)) hPair
            fun k _ _ => quiet_safe (respondIk_keeps _ k) past s

theorem serve_safe (ip : String) (past : List ConnLabel) (s : World) :
    Safe sys (compared (serverPrint na m)) (serve na m ip) (fun _ _ _ => True) past s := by
  refine Safe.bind ((serverHandshake_safe ip past s).mono fun result past s _ => ?_)
  refine quiet_safe ?_ past s
  cases result with
  | none => trivial
  | some result =>
      refine ⟨trivial, fun _ => ((TrustChanges.reapprove_uses _ _).mono fun _ => keepsStore_of_quiet).bind fun passed => ?_⟩
      cases passed with
      | none => trivial
      | some _ => exact (TrustChanges.serverSession_uses _ _).mono fun _ => keepsStore_of_quiet

/-- In every run of the server's thread, each stored key is the one whose
fingerprint is on display. -/
theorem serverRun_safe (past : List ConnLabel) (s : World) :
    Safe sys (compared (serverPrint na m)) (run na m) (fun _ _ _ => True) past s := by
  apply run_rule na m (I := fun _ _ => True) (C := KeepsStore) (fun _ _ _ _ _ _ => trivial)
    (fun hO _ hNext => quiet_op hO fun r past s => hNext r past s trivial) trivial fun _ => trivial
  · exact fun _ _ _ => trivial
  · exact fun _ _ _ _ _ => trivial
  · exact fun past s ip s' _ _ => serve_safe ip _ s'
  · trivial

end Server

/-- Two inputs whose hashes begin with the same three bytes. -/
def Collide (na : Sodium UInt8) (x y : List UInt8) : Prop :=
  x ≠ y ∧ (na.sha256 x).val.take 3 = (na.sha256 y).val.take 3

/-- Two hex digits tell their byte. -/
theorem hexByte_injective : Function.Injective hexByte := by
  have hDigit : ∀ a b : Fin 16, Nat.digitChar a = Nat.digitChar b → a = b := by decide
  intro b b' h
  obtain ⟨hHigh, hRest⟩ := List.cons.inj h
  obtain ⟨hLow, -⟩ := List.cons.inj hRest
  have hBound := b.toNat_lt
  have hBound' := b'.toNat_lt
  have hHigh := congrArg Fin.val (hDigit ⟨b.toNat / 16, by omega⟩ ⟨b'.toNat / 16, by omega⟩ hHigh)
  have hLow := congrArg Fin.val (hDigit ⟨b.toNat % 16, by omega⟩ ⟨b'.toNat % 16, by omega⟩ hLow)
  simp only at hHigh hLow
  exact UInt8.toNat_inj.mp (by omega)

/-- So equal fingerprints come from equal bytes of the hash. -/
theorem flatMap_hexByte_injective {bytes bytes' : List UInt8} (h : bytes.flatMap hexByte = bytes'.flatMap hexByte) :
    bytes = bytes' := by
  induction bytes generalizing bytes' with
  | nil =>
      cases bytes' with
      | nil => rfl
      | cons b' rest' => cases h
  | cons b rest ih =>
      cases bytes' with
      | nil => cases h
      | cons b' rest' =>
          rw [List.flatMap_cons, List.flatMap_cons] at h
          obtain ⟨hByte, hRest⟩ := List.append_inj h rfl
          rw [hexByte_injective hByte, ih hRest]

/-- Equal fingerprints are those of the same two keys, or of a collision. -/
theorem computeFingerprint_eq {a b a' b' : Key32 UInt8} (h : computeFingerprint na a b = computeFingerprint na a' b') :
    (a = a' ∧ b = b') ∨ Collide na (a.val ++ b.val) (a'.val ++ b'.val) := by
  by_cases hSame : a.val ++ b.val = a'.val ++ b'.val
  · obtain ⟨hFirst, hSecond⟩ := List.append_inj hSame (a.2.trans a'.2.symm)
    exact .inl ⟨Subtype.ext hFirst, Subtype.ext hSecond⟩
  · exact .inr ⟨hSame, flatMap_hexByte_injective (String.ofList_injective h)⟩

/-- When both sides store a key while their displays show one fingerprint,
each stores the key of the other, or somebody has found two inputs for one
fingerprint. -/
theorem paired_as_compared (c : TcpClient) (m : TcpServer) {d d' : UInt64} {k k' : Key32 UInt8} {init init' s s' : World}
    {past past' : List ConnLabel} {next next' : Unit → ConnProg Unit}
    (client : Run sys (c.run na) init past (.op (.remember d k) next) s)
    (server : Run sys (m.run na) init' past' (.op (.remember d' k') next') s')
    (hSame : s.status.pairingFingerprint = s'.status.pairingFingerprint) :
    (k = m.ownStatic.publicKey ∧ k' = c.ownStatic.publicKey) ∨
      Collide na (c.ownStatic.publicKey.val ++ k.val) (k'.val ++ m.ownStatic.publicKey.val) := by
  obtain ⟨-, -, hClient⟩ := (clientRun_safe [] init).ok_of_run client
  obtain ⟨-, -, hServer⟩ := (serverRun_safe [] init').ok_of_run server
  rw [hClient, hServer] at hSame
  rcases computeFingerprint_eq hSame with ⟨hOwn, hPeer⟩ | hCollide
  · exact .inl ⟨hPeer, hOwn.symm⟩
  · exact .inr hCollide

def slave : TcpClient where
  ownDeviceId := 1
  ownStatic := plainKeypair 9
  peerIp := "192.168.0.2"
  peerPort := 4000
  giveUpAfter := seconds 10

def master : TcpServer where
  ownDeviceId := 7
  ownStatic := plainKeypair 4
  audioPort := 5000

def emptyStore : KnownPeers := ⟨fun _ => none, fun _ => none⟩

/-- The Master pairs, and approves. -/
def slaveWorld : World :=
  World.fresh emptyStore ((encodeDeviceId 7).val ++ (1 :: (master.ownStatic.publicKey.val ++ [kPairingApproved])))

/-- What the Slave sends until then. -/
def slaveBytes : List UInt8 :=
  (encodeDeviceId 1).val ++ (1 :: slave.ownStatic.publicKey.val)

def usual (count : Nat) : List (Cue Action Choice) :=
  List.replicate count (.answer .usual)

/-- This key is about to be stored, under this fingerprint. -/
def storing (d : UInt64) (k : Key32 UInt8) (c : Config Op Ans Action World Unit) : Bool :=
  match c.prog with
  | .op (.remember d' k') _ => d' = d ∧ k' = k ∧
      c.state.status.pairingFingerprint = computeFingerprint plainSodium slave.ownStatic.publicKey master.ownStatic.publicKey
  | _ => false

/-- A play that ends before a store gives a run that does, with the
fingerprint that is on display then. -/
theorem exists_storing (p : ConnProg Unit) (init : World) (d : UInt64) (k : Key32 UInt8) (cues : List (Cue Action Choice))
    (h : ((connPlayer fun _ => True).play cues ⟨[], p, init⟩).any (storing d k) = true) :
    ∃ past next s, Run sys p init past (.op (.remember d k) next) s ∧ s.status.pairingFingerprint =
      computeFingerprint plainSodium slave.ownStatic.publicKey master.ownStatic.publicKey := by
  obtain ⟨past, q, s, hRun, hStoring⟩ := (connPlayer fun _ => True).exists_run p init cues (storing d k) h
  unfold storing at hStoring
  split at hStoring
  · rename_i d' k' next hProg
    obtain rfl : q = .op (.remember d' k') next := hProg
    obtain ⟨rfl, rfl, hShown⟩ := of_decide_eq_true hStoring
    exact ⟨past, next, s, hRun, hShown⟩
  · cases hStoring

/-- Both sides are about to store a key under equal fingerprints, and the keys
are those of the other side. -/
theorem paired_as_compared_once : ∃ (past past' : List ConnLabel) (next next' : Unit → ConnProg Unit) (s s' : World)
    (k k' : Key32 UInt8), Run sys (slave.run plainSodium) slaveWorld past (.op (.remember 7 k) next) s ∧
      Run sys (master.run plainSodium) (World.fresh emptyStore []) past' (.op (.remember 1 k') next') s' ∧
      ((k = master.ownStatic.publicKey ∧ k' = slave.ownStatic.publicKey) ∨
        Collide plainSodium (slave.ownStatic.publicKey.val ++ k.val) (k'.val ++ master.ownStatic.publicKey.val)) := by
  obtain ⟨past, next, s, hClient, hShown⟩ := exists_storing (slave.run plainSodium) slaveWorld 7
    master.ownStatic.publicKey (usual 1 ++ .enter :: usual 17) (by decide +kernel)
  obtain ⟨past', next', s', hServer, hShown'⟩ := exists_storing (master.run plainSodium) (World.fresh emptyStore []) 1
    slave.ownStatic.publicKey (.enter :: usual 2 ++ .answer (.client "192.168.0.3" slaveBytes) :: usual 13 ++
      .env .approvePairing :: .enter :: usual 4) (by decide +kernel)
  exact ⟨past, past', next, next', s, s', _, _, hClient, hServer,
    paired_as_compared slave master hClient hServer (hShown.trans hShown'.symm)⟩

end NoCapKVM.Discovery.ComparedKeys
