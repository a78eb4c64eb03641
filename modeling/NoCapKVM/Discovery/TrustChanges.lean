import NoCapKVM.Discovery.PlainSodium
import NoCapKVM.Discovery.Playback

/-! What an attempt to connect does to the trust store of its side. -/
namespace NoCapKVM.Discovery.TrustChanges

open Thread

/-- An attempt of either side: a `run_once`, or one accepted connection. -/
inductive Attempt where
  | client (c : TcpClient)
  | server (c : TcpServer) (ip : String)

def Attempt.prog (na : Sodium UInt8) : Attempt → ConnProg Unit
  | .client c => (TcpClient.runOnce na c).bind fun _ => .ret ()
  | .server c ip => TcpServer.serve na c ip

/-- The pairing is approved: for the client by the peer's decision byte, for
the server by the decision of its user. -/
def Attempt.Approves : Attempt → ConnLabel → Prop
  | .client _, l => ∃ deadline b,
      l = .did (.recvAll .decision 1 deadline) (some b) ∧ b.only = kPairingApproved
  | .server .., l => l = .did .loadDecision .approved

/-- The peer has claimed the id `d` and presented the key `k`, and a pairing
was approved. -/
def Paired (a : Attempt) (d : UInt64) (k : Key32 UInt8) (past : List ConnLabel) : Prop :=
  (∃ deadline id, .did (.recvAll .deviceId 8 deadline) (some id) ∈ past ∧ decodeDeviceId id = d) ∧
  (∃ deadline, .did (.recvAll .rawPubkey 32 deadline) (some k) ∈ past) ∧ ∃ l ∈ past, a.Approves l

/-- Nobody else edits the trust store meanwhile. -/
def editsNothing : Action → Prop
  | .remember .. | .forget _ => False
  | _ => True

instance : DecidablePred editsNothing
  | .remember .. | .forget _ => .isFalse id
  | .stop | .approvePairing | .rejectPairing | .disconnectCurrent | .setHeartbeatTimeout _
  | .takePendingClipboard => .isTrue trivial

/-- The key `k` was stored for the device that had presented it in an approved
pairing, and it still is. -/
def Stored (a : Attempt) (w : World) (k : Key32 UInt8) (past : List ConnLabel) (s : World) : Prop :=
  ∃ d, .did (.remember d k) () ∈ past ∧ Paired a d k past ∧ s.knownPeers = w.knownPeers.remember d k

/-- No run of Noise IK has begun. -/
def Unstarted (past : List ConnLabel) : Prop :=
  ∀ k, .did (.remark (.ikStarts k)) () ∉ past

/-- If a pairing was approved, its key is stored, and it is the key `k`. -/
def Ready (a : Attempt) (w : World) (k : Key32 UInt8) : Assertion Op Ans Action World :=
  fun past s => (∃ l ∈ past, a.Approves l) → Stored a w k past s

section

variable (a : Attempt) (w : World)

/-- A key is stored at most once in an attempt, only for a pairing, and before
Noise IK runs. -/
def ok : Op → Assertion Op Ans Action World
  | .remember d k, past, s => s.knownPeers = w.knownPeers ∧ Paired a d k past ∧ Unstarted past
  | .remark (.ikStarts k), past, s => Ready a w k past s
  | _, _, _ => True

/-- The store is as it was, and the listed events have happened. -/
def Known (ls : List ConnLabel) : Assertion Op Ans Action World :=
  fun past s => s.knownPeers = w.knownPeers ∧ Unstarted past ∧ ∀ l ∈ ls, l ∈ past

/-- Moreover nothing was approved. -/
def Fresh (ls : List ConnLabel) : Assertion Op Ans Action World :=
  fun past s => Known w ls past s ∧ ∀ l ∈ past, ¬ a.Approves l

/-- The store is as it was, or has the key of a pairing in addition. -/
def Changed : Assertion Op Ans Action World :=
  fun past s => s.knownPeers = w.knownPeers ∨
    ∃ d k, Paired a d k past ∧ s.knownPeers = w.knownPeers.remember d k

/-- Where a pairing was approved before Noise IK ran, the key of that run was
stored before, and it still is. -/
def Kept : Assertion Op Ans Action World :=
  fun past s => ∀ after k before, past = after ++ .did (.remark (.ikStarts k)) () :: before →
    (∃ l ∈ before, a.Approves l) →
      ∃ d, .did (.remember d k) () ∈ before ∧ Paired a d k before ∧ s.knownPeers = w.knownPeers.remember d k

end

variable {na : Sodium UInt8} {a : Attempt} {w : World} {ls : List ConnLabel} {α : Type}

/-- Where nobody else edits the trust store, the other threads
leave it alone. -/
theorem act_knownPeers {act : Action} (h : editsNothing act) (s : World) :
    (s.act act).knownPeers = s.knownPeers := by
  cases act <;> first
    | rfl
    | exact h.elim

/-- Others approve nothing. -/
theorem not_approves_env (act : Action) : ¬ a.Approves (.env act) := by
  cases a with
  | client c =>
      rintro ⟨_, _, hEq, -⟩
      cases hEq
  | server c ip =>
      intro hEq
      cases hEq

/-- The calls of other threads do not begin a key exchange. -/
theorem Unstarted.env {past : List ConnLabel} (h : Unstarted past) (act : Action) : Unstarted (.env act :: past) := by
  intro k hMem
  rcases List.mem_cons.mp hMem with hEq | hOld
  · cases hEq
  · exact h k hOld

/-- What has happened stays, and the store is edited by nobody else. -/
theorem known_stable : Stable (connSystem editsNothing) (Known w ls) := by
  rintro past s act s' ⟨hStore, hNoIk, hPast⟩ ⟨hAllowed, rfl⟩
  exact ⟨(act_knownPeers hAllowed s).trans hStore, hNoIk.env act, fun l hl => List.mem_cons_of_mem _ (hPast l hl)⟩

/-- Moreover a pairing is approved by this thread only. -/
theorem fresh_stable : Stable (connSystem editsNothing) (Fresh a w ls) := by
  intro past s act s' h hEnv
  exact ⟨known_stable past s act s' h.1 hEnv, List.forall_mem_cons.mpr ⟨not_approves_env act, h.2⟩⟩

theorem true_stable : Stable (connSystem editsNothing) fun _ _ => True :=
  fun _ _ _ _ _ _ => trivial

/-- Who has claimed what and which pairing was approved are facts
about the past. -/
theorem Paired.cons {d : UInt64} {k : Key32 UInt8} {past : List ConnLabel} (h : Paired a d k past)
    (l : ConnLabel) : Paired a d k (l :: past) := by
  obtain ⟨⟨deadline, id, hId, hD⟩, ⟨deadline', hKey⟩, l', hMem, hApproves⟩ := h
  exact ⟨⟨deadline, id, List.mem_cons_of_mem l hId, hD⟩, ⟨deadline', List.mem_cons_of_mem l hKey⟩,
    l', List.mem_cons_of_mem l hMem, hApproves⟩

/-- A key that was stored in an approved pairing stays stored, since no
operation of the attempt takes it back. -/
theorem Stored.cons {k : Key32 UInt8} {past : List ConnLabel} {s s' : World} (h : Stored a w k past s)
    (hSame : s'.knownPeers = s.knownPeers) (l : ConnLabel) : Stored a w k (l :: past) s' := by
  obtain ⟨d, hMem, hPaired, hStore⟩ := h
  exact ⟨d, List.mem_cons_of_mem l hMem, hPaired.cons l, hSame.trans hStore⟩

/-- An event that approves nothing and that leaves the store alone. -/
theorem Ready.cons {k : Key32 UInt8} {past : List ConnLabel} {s s' : World} {l : ConnLabel} (h : Ready a w k past s)
    (hL : ¬ a.Approves l) (hSame : s'.knownPeers = s.knownPeers) : Ready a w k (l :: past) s' := by
  rintro ⟨l', hMem, hApproves⟩
  rcases List.mem_cons.mp hMem with rfl | hOld
  · exact absurd hApproves hL
  · exact (h ⟨l', hOld, hApproves⟩).cons hSame l

/-- A key that is ready for Noise IK stays so. -/
theorem ready_stable {k : Key32 UInt8} : Stable (connSystem editsNothing) (Ready a w k) := by
  rintro past s act s' h ⟨hAllowed, rfl⟩
  exact h.cons (not_approves_env act) (act_knownPeers hAllowed s)

/-- Operations that neither store a key nor begin a run of Noise IK. -/
def IsQuiet : Op → Prop
  | .remember .. | .remark (.ikStarts _) => False
  | _ => True

/-- Operations that do not read an answer to a pairing either. -/
def IsFresh : Op → Prop
  | .recvAll .decision _ _ | .loadDecision => False
  | o => IsQuiet o

/-- Operations that read no answer to a pairing are among the quiet ones. -/
theorem isQuiet_of_fresh {o : Op} (h : IsFresh o) : IsQuiet o := by
  cases o with
  | recvAll phase len deadline => exact trivial
  | loadDecision => exact h.elim
  | _ => exact h

/-- Operations that read no answer approve no pairing. -/
theorem not_approves_did {o : Op} (hO : IsFresh o) (r : Ans o) : ¬ a.Approves (.did o r) := by
  cases a with
  | client c =>
      rintro ⟨_, _, hEq, -⟩
      cases hEq
      exact hO
  | server c ip =>
      intro hEq
      cases hEq
      exact hO

/-- Only storing a key and beginning a key exchange have conditions. -/
theorem ok_of_quiet {o : Op} (hO : IsQuiet o) (past : List ConnLabel) (s : World) : ok a w o past s := by
  cases o with
  | remember d k => exact hO.elim
  | remark remark =>
      cases remark with
      | ikStarts k => exact hO.elim
      | ikSucceeded k => exact trivial
  | _ => exact trivial

/-- Quiet operations leave the trust store as it is. -/
theorem exec_quiet {o : Op} {s s' : World} {r : Ans o} (hO : IsQuiet o) (hExec : World.exec o s r s') :
    s'.knownPeers = s.knownPeers := by
  apply World.exec_knownPeers hExec
  rintro d k rfl
  exact hO

/-- Nothing more is stored. -/
theorem settled_safe {p : ConnProg α} (hP : p.Uses IsQuiet) (past : List ConnLabel) (s : World) :
    Safe (connSystem editsNothing) (ok a w) p (fun _ _ _ => True) past s :=
  Safe.frame (fun _ _ => True) true_stable (fun _ past s hO _ => ok_of_quiet hO past s)
    (fun _ _ _ _ _ _ _ _ => trivial) hP trivial

/-- An operation after which nothing is asked of the store. -/
theorem quiet_op {o : Op} {next : Ans o → ConnProg α} {Q : α → Assertion Op Ans Action World} (hO : IsQuiet o)
    (hNext : ∀ r past s, Safe (connSystem editsNothing) (ok a w) (next r) Q past s) (past : List ConnLabel) (s : World) :
    Safe (connSystem editsNothing) (ok a w) (.op o next) Q past s :=
  Safe.op_any (ok_of_quiet hO) hNext past s

/-- After a quiet operation one more event is known, and the store is
still as it was. -/
theorem known_did {o : Op} (hO : IsQuiet o) {past : List ConnLabel} {s s' : World} {r : Ans o} (h : Known w ls past s)
    (hExec : (connSystem editsNothing).exec o s r s') : Known w (.did o r :: ls) (.did o r :: past) s' := by
  refine ⟨(exec_quiet hO hExec).trans h.1, fun k hMem => ?_, ?_⟩
  · rcases List.mem_cons.mp hMem with hEq | hOld
    · cases hEq
      exact hO
    · exact h.2.1 k hOld
  · rintro l (_ | ⟨_, hl⟩)
    · exact List.mem_cons_self
    · exact List.mem_cons_of_mem _ (h.2.2 l hl)

/-- An event that is not needed any more can be forgotten. -/
theorem Known.drop {l : ConnLabel} {past : List ConnLabel} {s : World} (h : Known w (l :: ls) past s) :
    Known w ls past s :=
  ⟨h.1, h.2.1, fun l' hl => h.2.2 l' (List.mem_cons_of_mem _ hl)⟩

theorem Fresh.drop {l : ConnLabel} {past : List ConnLabel} {s : World} (h : Fresh a w (l :: ls) past s) :
    Fresh a w ls past s :=
  ⟨h.1.drop, h.2⟩

/-- One operation: its event joins the listed ones. -/
theorem seen_safe {o : Op} {next : Ans o → ConnProg α} {Q : α → Assertion Op Ans Action World}
    {past : List ConnLabel} {s : World} (hO : IsQuiet o) (h : Known w ls past s)
    (hNext : ∀ r past s, Known w (.did o r :: ls) past s →
      Safe (connSystem editsNothing) (ok a w) (next r) Q past s) :
    Safe (connSystem editsNothing) (ok a w) (.op o next) Q past s := by
  apply Safe.op (Known w ls) known_stable h (fun past s _ => ok_of_quiet hO past s)
  intro past s r s' h hExec
  exact hNext r _ _ (known_did hO h hExec)

/-- An operation that reads no answer to a pairing adds itself to what has
happened. -/
theorem fresh_safe {o : Op} {next : Ans o → ConnProg α} {Q : α → Assertion Op Ans Action World}
    {past : List ConnLabel} {s : World} (hO : IsFresh o) (h : Fresh a w ls past s)
    (hNext : ∀ r past s, Fresh a w (.did o r :: ls) past s →
      Safe (connSystem editsNothing) (ok a w) (next r) Q past s) :
    Safe (connSystem editsNothing) (ok a w) (.op o next) Q past s := by
  apply Safe.op (Fresh a w ls) fresh_stable h (fun past s _ => ok_of_quiet (isQuiet_of_fresh hO) past s)
  intro past s r s' h hExec
  exact hNext r _ _ ⟨known_did (isQuiet_of_fresh hO) h.1 hExec, List.forall_mem_cons.mpr ⟨not_approves_did hO r, h.2⟩⟩

/-- A message is sent and one is received. -/
theorem exchange_safe {phase : Phase} {sent : List UInt8} {len : Nat} {deadline : Time}
    {next : Option (Bytes UInt8 len) → ConnProg α} {Q : α → Assertion Op Ans Action World}
    {past : List ConnLabel} {s : World} (hO : IsFresh (.recvAll phase len deadline)) (h : Fresh a w ls past s)
    (hNone : ∀ past s, Safe (connSystem editsNothing) (ok a w) (next none) Q past s)
    (hSome : ∀ data past s, Fresh a w (.did (.recvAll phase len deadline) (some data) :: ls) past s →
      Safe (connSystem editsNothing) (ok a w) (next (some data)) Q past s) :
    Safe (connSystem editsNothing) (ok a w) ((exchange phase sent len deadline).bind next) Q past s := by
  refine fresh_safe trivial h fun sent past s h => ?_
  cases sent with
  | false => exact hNone past s
  | true =>
      refine fresh_safe hO h.drop fun received past s h => ?_
      cases received with
      | none => exact hNone past s
      | some data => exact hSome data past s h

/-- A key is stored for good: whatever is asked next finds it. -/
theorem store_safe {d : UInt64} {k : Key32 UInt8} {next : Unit → ConnProg α}
    {Q : α → Assertion Op Ans Action World} {past : List ConnLabel} {s : World} (h : Known w ls past s)
    (hPaired : ∀ past, (∀ l ∈ ls, l ∈ past) → Paired a d k past)
    (hNext : ∀ past s, Ready a w k past s → Safe (connSystem editsNothing) (ok a w) (next ()) Q past s) :
    Safe (connSystem editsNothing) (ok a w) (.op (.remember d k) next) Q past s := by
  refine .op (Known w ls) known_stable h (fun past _ h => ⟨h.1, hPaired past h.2.2, h.2.1⟩) fun past s _ s' h hExec => ?_
  obtain rfl := hExec
  exact hNext _ _ fun _ => ⟨d, List.mem_cons_self, (hPaired past h.2.2).cons _, by rw [h.1]⟩

/-- A run of Noise IK begins, and nothing more is stored. -/
theorem starts_safe {k : Key32 UInt8} {next : Time → ConnProg α} (hNext : ∀ now, (next now).Uses IsQuiet)
    {past : List ConnLabel} {s : World} (h : Ready a w k past s) :
    Safe (connSystem editsNothing) (ok a w) (.op .now fun now => .op (.remark (.ikStarts k)) fun _ => next now)
      (fun _ _ _ => True) past s := by
  refine .op (Ready a w k) ready_stable h (fun _ _ _ => trivial) fun past s now s' h hExec => ?_
  refine .op (Ready a w k) ready_stable (h.cons (not_approves_did (o := .now) trivial now) (exec_quiet (o := .now) trivial hExec))
    (fun _ _ h => h) fun past s _ s' _ _ => settled_safe (hNext now) _ s'

/-- As long as nothing was approved, any key is ready for Noise IK. -/
theorem Fresh.ready {past : List ConnLabel} {s : World} (h : Fresh a w ls past s) (k : Key32 UInt8) :
    Ready a w k past s :=
  fun ⟨l, hMem, hApproves⟩ => absurd hApproves (h.2 l hMem)

/-- A session neither stores a key nor begins a key exchange. -/
theorem isQuiet_of_session {o : Op} (hO : IsSessionOp o) : IsQuiet o := by
  cases o <;> first
    | exact trivial
    | exact hO.elim

theorem isQuiet_of_transfer {o : Op} (hO : IsTransfer o) : IsQuiet o := by
  cases o <;> first
    | exact trivial
    | exact hO.elim

/-- The peer has claimed the id `d`. -/
def Claimed (ls : List ConnLabel) (d : UInt64) : Prop :=
  ∃ deadline id, .did (.recvAll .deviceId 8 deadline) (some id) ∈ ls ∧ decodeDeviceId id = d

/-- A claim stays a claim when more has happened. -/
theorem Claimed.mono {ls ls' : List ConnLabel} {d : UInt64} (h : Claimed ls d)
    (hSub : ∀ l ∈ ls, l ∈ ls') : Claimed ls' d := by
  obtain ⟨deadline, id, hId, hD⟩ := h
  exact ⟨deadline, id, hSub _ hId, hD⟩

/-- The three events of a pairing, each found in the past, make it one of the
device with its key. -/
theorem paired_of_mem {d : UInt64} {deadline : Time} {k : Key32 UInt8} {l : ConnLabel}
    (hClaimed : Claimed ls d) (hKey : .did (.recvAll .rawPubkey 32 deadline) (some k) ∈ ls)
    (hMem : l ∈ ls) (hApproves : a.Approves l) (past : List ConnLabel) (hPast : ∀ l ∈ ls, l ∈ past) :
    Paired a d k past :=
  ⟨hClaimed.mono hPast, ⟨deadline, hPast _ hKey⟩, l, hPast l hMem, hApproves⟩

section Client

open TcpClient

variable {c : TcpClient}

theorem abandon_quiet {β : Type} (outcome : AttemptOutcome) :
    (abandon outcome : ConnProg (Except AttemptOutcome β)).Uses IsQuiet :=
  abandon_uses trivial trivial outcome

/-- The client's key exchange begins with the key that is ready. -/
theorem initiateIk_safe {d : UInt64} {rs : Key32 UInt8} {past : List ConnLabel} {s : World} (h : Ready a w rs past s) :
    Safe (connSystem editsNothing) (ok a w) (initiateIk na c d rs) (fun _ _ _ => True) past s := by
  obtain ⟨next, hEq, hNext⟩ := initiateIk_starts na c (P := IsQuiet)
    (fun _ o => (ikOp_uses o).mono fun _ => isQuiet_of_transfer) trivial trivial d rs
  rw [hEq]
  exact starts_safe hNext h

/-- The session of a client stores no key. -/
theorem session_uses (d : UInt64) (ik : IkResult UInt8) : (session c d ik).Uses IsQuiet := by
  have hRound := fun x => (sessionRound_uses c x).mono fun _ => isQuiet_of_session
  simp [session, IsQuiet, hRound]

/-- The client's key is ready for Noise IK once the pairing has given one. -/
def KeyReady (a : Attempt) (w : World) : Except AttemptOutcome (Key32 UInt8) → Assertion Op Ans Action World
  | .error _ => fun _ _ => True
  | .ok k => Ready a w k

/-- A pairing of the client stores the key at most once, and only if the peer
has sent its approval. -/
theorem clientPair_safe {d : UInt64} {past : List ConnLabel} {s : World} (h : Fresh (.client c) w ls past s)
    (hClaimed : Claimed ls d) :
    Safe (connSystem editsNothing) (ok (.client c) w) (pair na c d) (KeyReady (.client c) w) past s := by
  have hGone : ∀ outcome past s, Safe (connSystem editsNothing) (ok (.client c) w)
      (abandon outcome : ConnProg (Except AttemptOutcome (Key32 UInt8))) (KeyReady (.client c) w) past s := by
    intro outcome past s
    refine quiet_op (o := .closeSocket) trivial (fun _ past s => ?_) past s
    refine quiet_op (o := .updateStatus (.state .failed)) trivial (fun _ past s => ?_) past s
    exact .ret_of _ rfl true_stable trivial
  refine fresh_safe trivial h fun now past s h => ?_
  simp only [Prog.bind_def, Prog.ret_bind]
  refine exchange_safe trivial h.drop (hGone _) fun k past s h => ?_
  refine fresh_safe trivial h fun _ past s h => ?_
  refine fresh_safe trivial h.drop fun now past s h => ?_
  refine seen_safe trivial h.drop.1 fun received past s h => ?_
  cases received with
  | none => exact hGone _ past s
  | some b =>
      by_cases hByte : b.only = kPairingApproved
      · simp only [Prog.ret_bind, hByte, ne_eq, not_true_eq_false, if_false]
        refine store_safe h (fun past hPast => ?_) fun past s h =>
          Safe.ret_of (a := Except.ok k) (Ready (.client c) w k) rfl ready_stable h
        have hApproves : ∀ deadline,
            Attempt.Approves (.client c) (.did (.recvAll .decision 1 deadline) (some b)) :=
          fun deadline => ⟨deadline, b, rfl, hByte⟩
        exact paired_of_mem (hClaimed.mono fun l hl => List.mem_cons_of_mem _ (List.mem_cons_of_mem _ hl))
          (List.mem_cons_of_mem _ List.mem_cons_self) List.mem_cons_self (hApproves _) past hPast
      · simp only [Prog.ret_bind, hByte, ne_eq, not_false_eq_true, if_true]
        exact hGone _ past s

/-- The handshake of the client stores at most the key of an approved pairing,
and before its key exchange. -/
theorem clientHandshake_safe {past : List ConnLabel} {s : World} (h : Fresh (.client c) w ls past s) :
    Safe (connSystem editsNothing) (ok (.client c) w) (handshake na c) (fun _ _ _ => True) past s := by
  refine fresh_safe trivial h fun now past s h => ?_
  simp only [Prog.bind_def, Prog.ret_bind]
  refine exchange_safe trivial h.drop (settled_safe (abandon_quiet _)) fun id past s h => ?_
  refine fresh_safe trivial h fun rs past s h => ?_
  refine fresh_safe trivial h.drop fun now past s h => ?_
  simp only [Prog.ret_bind]
  refine exchange_safe trivial h.drop (settled_safe (abandon_quiet _)) fun flag past s h => ?_
  have hPair : Safe (connSystem editsNothing) (ok (.client c) w)
      ((pair na c (decodeDeviceId id)).bind (initiateAfter na c (decodeDeviceId id))) (fun _ _ _ => True) past s :=
    pair_initiate_safe (clientPair_safe h ⟨_, id, List.mem_cons_of_mem _ List.mem_cons_self, rfl⟩)
      (fun _ _ _ _ => .ret true_stable trivial) fun _ _ _ h => initiateIk_safe h
  exact branch_cases na c _ rs (flag.only != 0)
    (P := (Safe (connSystem editsNothing) (ok (.client c) w) · _ past s)) hPair fun rs _ _ =>
    initiateIk_safe (h.ready rs)

/-- A whole attempt of the client stores at most that key, for at
most one device. -/
theorem runOnce_safe {past : List ConnLabel} {s : World} (h : Fresh (.client c) w ls past s) :
    Safe (connSystem editsNothing) (ok (.client c) w) (runOnce na c) (fun _ _ _ => True) past s := by
  have hEnd : ∀ {p : ConnProg AttemptOutcome}, p.Uses IsQuiet → ∀ past s, Fresh (.client c) w ls past s →
      Safe (connSystem editsNothing) (ok (.client c) w) p (fun _ _ _ => True) past s :=
    fun hP past s _ => settled_safe hP past s
  apply runOnce_cases na c (C := IsFresh)
    (M := fun p => ∀ past s, Fresh (.client c) w ls past s →
      Safe (connSystem editsNothing) (ok (.client c) w) p (fun _ _ _ => True) past s)
    (fun o next hO hNext past s h => fresh_safe hO h fun r past s h => hNext r past s h.drop) trivial trivial trivial
  · exact hEnd (by simp [IsQuiet])
  · exact hEnd (by simp [IsQuiet])
  · intro past s h
    refine Safe.bind ((clientHandshake_safe h).mono ?_)
    intro result past s _
    cases result with
    | error outcome => exact .ret true_stable trivial
    | ok result => exact settled_safe (session_uses _ _) past s
  · exact h

end Client

section Server

open TcpServer

variable {c : TcpServer} {ip : String}

/-- The server's key exchange begins with the key that is ready. -/
theorem respondIk_safe {d : UInt64} {k : Key32 UInt8} {past : List ConnLabel} {s : World} (h : Ready a w k past s) :
    Safe (connSystem editsNothing) (ok a w) (respondIk na c d k) (fun _ _ _ => True) past s := by
  obtain ⟨next, hEq, hNext⟩ := respondIk_starts na c (P := IsQuiet)
    (fun _ o => (ikOp_uses o).mono fun _ => isQuiet_of_transfer) (fun _ => trivial) trivial trivial d k
  rw [hEq]
  exact starts_safe hNext h

/-- Asking the user neither stores a key nor begins a key exchange. -/
theorem uses_prompt {α : Type} {p : ConnProg α} (hP : p.Uses IsPromptOp) : p.Uses IsQuiet :=
  hP.mono fun o hO => by
    cases o <;> first
      | exact hO.elim
      | trivial

/-- Nor does the question whether a kicked device may come back. -/
theorem reapprove_uses (d : UInt64) (ik : IkResult UInt8) :
    (reapprove na c ip d ik).Uses IsQuiet := by
  refine ⟨trivial, fun kicked => ?_⟩
  cases kicked with
  | false => exact trivial
  | true =>
      refine (uses_prompt (prompt_uses na c ip d ik.peerStatic)).bind fun decision => ?_
      split
      · exact ⟨trivial, fun _ => reset_uses trivial trivial⟩
      · exact ⟨trivial, fun _ => trivial⟩

theorem serverSession_uses (d : UInt64) (ik : IkResult UInt8) :
    (session c ip d ik).Uses IsQuiet := by
  apply session_cases c (fun _ => isQuiet_of_session) (fun _ => trivial) trivial trivial trivial trivial
  exact fun next hNext => ⟨trivial, hNext⟩

/-- The store is as it was, and an approval was read. -/
def Decided (w : World) (ls : List ConnLabel) (decision : PairingDecision) :
    Assertion Op Ans Action World :=
  fun past s => Known w ls past s ∧ (decision = .approved → .did .loadDecision .approved ∈ past)

/-- An answer that was read stays read. -/
theorem decided_stable (decision : PairingDecision) :
    Stable (connSystem editsNothing) (Decided w ls decision) := by
  intro past s act s' h hEnv
  exact ⟨known_stable past s act s' h.1 hEnv, fun hD => List.mem_cons_of_mem _ (h.2 hD)⟩

/-- A wait ends with an approval only if one was read from the user. -/
theorem awaitDecision_safe (approvalDeadline : Time) {past : List ConnLabel} {s : World}
    (h : Known w ls past s) :
    Safe (connSystem editsNothing) (ok a w) (awaitDecision approvalDeadline) (Decided w ls) past s := by
  have hPoll : ∀ {o : Op} {next : Ans o → ConnProg (Unit ⊕ PairingDecision)} {Q past s}, IsQuiet o →
      Known w ls past s → (∀ r past s, Known w ls past s → Safe (connSystem editsNothing) (ok a w) (next r) Q past s) →
      Safe (connSystem editsNothing) (ok a w) (.op o next) Q past s :=
    fun hO h hNext => seen_safe hO h fun r past s h => hNext r past s h.drop
  apply awaitDecision_rule (C := IsQuiet) known_stable decided_stable hPoll trivial trivial fun _ => trivial
  · exact fun past s h => ⟨h, nofun⟩
  · exact fun _ _ _ => trivial
  · exact fun past s s' h hExec => (known_did (o := .loadDecision) trivial h hExec).drop
  · intro past s decision s' h hExec
    have hKnown := known_did (o := .loadDecision) trivial h hExec
    exact ⟨hKnown.drop, fun hD => hD ▸ hKnown.2.2 _ List.mem_cons_self⟩
  · exact h

/-- A prompt that ends with an approval has read one. -/
theorem prompt_safe {d : UInt64} {k : Key32 UInt8} {past : List ConnLabel} {s : World}
    (h : Known w ls past s) :
    Safe (connSystem editsNothing) (ok a w) (prompt na c ip d k) (Decided w ls) past s := by
  refine seen_safe trivial h fun _ past s h => ?_
  refine seen_safe trivial h.drop fun _ past s h => ?_
  exact seen_safe trivial h.drop fun start past s h => awaitDecision_safe _ h.drop

/-- The server's key is ready for Noise IK once the pairing has given one. -/
def TrustReady (a : Attempt) (w : World) : Option (Key32 UInt8) → Assertion Op Ans Action World
  | none => fun _ _ => True
  | some k => Ready a w k

/-- A pairing of the server stores the key at most once, and only if its user
has approved it. -/
theorem serverPair_safe {d : UInt64} {past : List ConnLabel} {s : World} (h : Fresh (.server c ip) w ls past s)
    (hClaimed : Claimed ls d) :
    Safe (connSystem editsNothing) (ok (.server c ip) w) (pair na c ip d) (TrustReady (.server c ip) w) past s := by
  have hReset : ∀ past s, Safe (connSystem editsNothing) (ok (.server c ip) w)
      (reset : ConnProg (Option (Key32 UInt8))) (TrustReady (.server c ip) w) past s := by
    intro past s
    refine quiet_op (o := .closeSocket) trivial (fun _ past s => ?_) past s
    refine quiet_op (o := .assignStatus {}) trivial (fun _ past s => ?_) past s
    exact .ret_of _ rfl true_stable trivial
  refine fresh_safe trivial h fun now past s h => ?_
  simp only [Prog.bind_def, Prog.ret_bind]
  refine exchange_safe trivial h.drop ?_ fun k past s h => ?_
  · intro past s
    exact quiet_op (o := .closeSocket) trivial (fun _ past s => .ret_of _ rfl true_stable trivial) past s
  refine Safe.bind ((prompt_safe h.1).mono ?_)
  intro decision past s hDecided
  by_cases hDecision : decision = .approved
  · simp only [hDecision, ne_eq, not_true_eq_false, if_false]
    have hRead := hDecided.2 hDecision
    have hKnown : Known w (.did .loadDecision .approved :: _) past s :=
      ⟨hDecided.1.1, hDecided.1.2.1, List.forall_mem_cons.mpr ⟨hRead, hDecided.1.2.2⟩⟩
    refine seen_safe trivial hKnown fun _ past s h => ?_
    refine store_safe h.drop (fun past hPast => ?_) fun past s h =>
      Safe.ret_of (a := some k) (Ready (.server c ip) w k) rfl ready_stable h
    have hApproves : Attempt.Approves (.server c ip) (.did .loadDecision .approved) := rfl
    exact paired_of_mem (hClaimed.mono fun l hl => List.mem_cons_of_mem _ (List.mem_cons_of_mem _ hl))
      (List.mem_cons_of_mem _ List.mem_cons_self) List.mem_cons_self hApproves past hPast
  · simp only [hDecision, ne_eq, not_false_eq_true, if_true]
    exact quiet_op (o := .sendAll .decision _) trivial (fun _ => hReset) past s

/-- The handshake of the server stores at most the key of an approved pairing,
and before its key exchange. -/
theorem serverHandshake_safe {past : List ConnLabel} {s : World} (h : Fresh (.server c ip) w ls past s) :
    Safe (connSystem editsNothing) (ok (.server c ip) w) (handshake na c ip) (fun _ _ _ => True)
      past s := by
  refine fresh_safe trivial h fun now past s h => ?_
  simp only [Prog.bind_def, Prog.ret_bind]
  refine exchange_safe trivial h.drop (settled_safe (drop_uses trivial)) fun id past s h => ?_
  refine fresh_safe trivial h fun stored past s h => ?_
  refine fresh_safe trivial h.drop fun now past s h => ?_
  simp only [Prog.ret_bind]
  refine exchange_safe trivial h.drop (settled_safe (drop_uses trivial)) fun flag past s h => ?_
  have hPair : Safe (connSystem editsNothing) (ok (.server c ip) w)
      ((pair na c ip (decodeDeviceId id)).bind (respondAfter na c (decodeDeviceId id))) (fun _ _ _ => True) past s :=
    pair_respond_safe (serverPair_safe h ⟨_, id, List.mem_cons_of_mem _ List.mem_cons_self, rfl⟩)
      (fun _ _ _ => .ret true_stable trivial) fun _ _ _ h => respondIk_safe h
  exact branch_cases na c ip _ stored (flag.only != 0)
    (P := (Safe (connSystem editsNothing) (ok (.server c ip) w) · _ past s)) hPair fun k _ _ =>
    respondIk_safe (h.ready k)

/-- Serving one client stores at most that key. -/
theorem serve_safe {past : List ConnLabel} {s : World} (h : Fresh (.server c ip) w ls past s) :
    Safe (connSystem editsNothing) (ok (.server c ip) w) (serve na c ip) (fun _ _ _ => True) past s := by
  refine Safe.bind ((serverHandshake_safe h).mono ?_)
  intro result past s _
  refine settled_safe ?_ past s
  cases result with
  | none => exact trivial
  | some result =>
      refine ⟨trivial, fun _ => (reapprove_uses _ _).bind fun passed => ?_⟩
      cases passed with
      | none => exact trivial
      | some _ => exact serverSession_uses _ _

end Server

/-- On either side, an attempt stores a key only for an approved pairing, and
before Noise IK runs. -/
theorem attempt_safe (a : Attempt) :
    Safe (connSystem editsNothing) (ok a w) (a.prog na) (fun _ _ _ => True) [] w := by
  have hStart : Fresh a w [] [] w := ⟨⟨rfl, fun _ => List.not_mem_nil, fun _ hl => absurd hl List.not_mem_nil⟩,
    fun _ hl => absurd hl List.not_mem_nil⟩
  cases a with
  | client c => exact Safe.bind ((runOnce_safe hStart).mono fun _ _ _ _ => .ret true_stable trivial)
  | server c ip => exact serve_safe hStart

/-- What the invariant says survives an event that leaves the store alone and
begins no Noise IK. -/
theorem Kept.cons {past : List ConnLabel} {s s' : World} {l : ConnLabel} (h : Kept a w past s)
    (hL : ∀ k, l ≠ .did (.remark (.ikStarts k)) ()) (hSame : s'.knownPeers = s.knownPeers) :
    Kept a w (l :: past) s' := by
  intro after k before hPast hApproved
  cases after with
  | nil => exact absurd (List.cons.inj hPast).1 (hL k)
  | cons l' after =>
      obtain ⟨d, hMem, hPaired, hStore⟩ := h after k before (List.cons.inj hPast).2 hApproved
      exact ⟨d, hMem, hPaired, hSame.trans hStore⟩

/-- An operation of an attempt does not take a key back that was stored for
its key exchange. -/
theorem kept_did {o : Op} {past : List ConnLabel} {s s' : World} {r : Ans o} (hOk : ok a w o past s)
    (h : Kept a w past s) (hExec : World.exec o s r s') : Kept a w (.did o r :: past) s' := by
  by_cases hO : IsQuiet o
  · refine h.cons (fun k hEq => ?_) (exec_quiet hO hExec)
    cases hEq
    exact hO
  · cases o with
    | remember d k =>
        -- No run of Noise IK has begun yet.
        intro after k' before hPast _
        have hMem : .did (.remark (.ikStarts k')) () ∈ past := by
          cases after with
          | nil => cases (List.cons.inj hPast).1
          | cons l after => exact (List.cons.inj hPast).2 ▸ List.mem_append_right after List.mem_cons_self
        exact absurd hMem (hOk.2.2 k')
    | remark remark =>
        cases remark with
        | ikSucceeded k => exact absurd trivial hO
        | ikStarts k =>
            intro after k' before hPast hApproved
            obtain rfl := hExec
            cases after with
            | nil =>
                obtain ⟨hEq, rfl⟩ := List.cons.inj hPast
                cases hEq
                exact hOk hApproved
            | cons l after => exact h after k' before (List.cons.inj hPast).2 hApproved
    | _ => exact absurd trivial hO

/-- It leaves the store as it was, or with the key of the pairing
in addition. -/
theorem changed_did {o : Op} {past : List ConnLabel} {s s' : World} {r : Ans o} (hOk : ok a w o past s)
    (h : Changed a w past s) (hExec : World.exec o s r s') : Changed a w (.did o r :: past) s' := by
  have hRest : s'.knownPeers = s.knownPeers → Changed a w (.did o r :: past) s' := by
    intro hSame
    rw [Changed, hSame]
    exact h.imp_right fun ⟨d, k, hPaired, hStore⟩ => ⟨d, k, hPaired.cons _, hStore⟩
  cases o with
  | remember d k =>
      obtain ⟨hStore, hPaired, -⟩ := hOk
      obtain rfl := hExec
      exact Or.inr ⟨d, k, hPaired.cons _, by rw [hStore]⟩
  | _ => exact hRest (World.exec_knownPeers hExec (by simp))

/-- An attempt of either side leaves the trust store as it was, in memory and
on disk, or adds the key that the peer has presented in an approved pairing.
If a pairing was approved before Noise IK ran, its key was stored before too,
and stays stored from then on: also when that run fails. -/
theorem attempt_store {p : ConnProg Unit} {past : List ConnLabel} {s : World}
    (hRun : Run (connSystem editsNothing) (a.prog na) w past p s) :
    (s.knownPeers = w.knownPeers ∨
      ∃ d k, Paired a d k past ∧ s.knownPeers = w.knownPeers.remember d k) ∧
    ∀ after k before, past = after ++ .did (.remark (.ikStarts k)) () :: before →
      (∃ l ∈ before, a.Approves l) →
        ∃ d, .did (.remember d k) () ∈ before ∧ Paired a d k before ∧ s.knownPeers = w.knownPeers.remember d k := by
  have hStart : Changed a w [] w ∧ Kept a w [] w := by
    refine ⟨Or.inl rfl, fun after k before hPast => ?_⟩
    cases after <;> cases hPast
  refine (attempt_safe a).invariant (fun past s => Changed a w past s ∧ Kept a w past s) ?_ ?_ hStart hRun
  · rintro past s act s' ⟨hChanged, hKept⟩ ⟨hAllowed, rfl⟩
    have hSame := act_knownPeers hAllowed s
    refine ⟨?_, hKept.cons (fun _ => by simp) hSame⟩
    rw [Changed, hSame]
    exact hChanged.imp_right fun ⟨d, k, hPaired, hStore⟩ => ⟨d, k, hPaired.cons _, hStore⟩
  · exact fun o past s r s' hOk h hExec => ⟨changed_did hOk h.1 hExec, kept_did hOk h.2 hExec⟩

section Instance

/-- A Slave that knows nobody. -/
def slave : TcpClient where
  ownDeviceId := 1
  ownStatic := plainKeypair 9
  peerIp := "192.168.0.2"
  peerPort := 4000
  giveUpAfter := seconds 10

/-- Device 7 presents a key, approves the pairing, and leaves. -/
def leavingWorld : World :=
  World.fresh ⟨fun _ => none, fun _ => none⟩
    ((encodeDeviceId 7).val ++ (1 :: ((plainKeypair 4).publicKey.val ++ [kPairingApproved])))

def isOpenChannel : ConnLabel → Bool
  | .did (.openChannel _) _ => true
  | _ => false

/-- What the client does until it misses the second message of the key
exchange. -/
def leavingCues : List (Cue Action Choice) :=
  List.replicate 19 (.answer .usual) ++ [.answer (.keypair (plainKeypair 5)), .answer .usual,
    .answer .fails, .answer .usual, .answer .usual]

/-- The attempt has ended without a channel and has stored the key
of device 7. -/
def storedEarly (c : Config Op Ans Action World Unit) : Bool :=
  c.prog.ended && c.past.all (!isOpenChannel ·) && (c.state.knownPeers.getPubkey 7).isSome

def isApproval : ConnLabel → Bool
  | .did (.recvAll .decision 1 _) (some b) => b.only == kPairingApproved
  | _ => false

/-- A run of Noise IK has begun after an approved pairing. -/
def startsApproved : List ConnLabel → Bool
  | [] => false
  | .did (.remark (.ikStarts _)) _ :: past => past.any isApproval
  | _ :: past => startsApproved past

theorem approves_of_isApproval {l : ConnLabel} (h : isApproval l = true) : (Attempt.client slave).Approves l := by
  unfold isApproval at h
  split at h
  · next deadline b => exact ⟨deadline, b, rfl, beq_iff_eq.mp h⟩
  · cases h

/-- A run in which a key exchange begins after an approval can be cut
at that point. -/
theorem exists_starts {past : List ConnLabel} (h : startsApproved past = true) :
    ∃ after k before, past = after ++ .did (.remark (.ikStarts k)) () :: before ∧
      ∃ l ∈ before, (Attempt.client slave).Approves l := by
  induction past using startsApproved.induct with
  | case1 => cases h
  | case2 k r past =>
      obtain ⟨l, hMem, hApproval⟩ := List.any_eq_true.mp h
      exact ⟨[], k, past, rfl, l, hMem, approves_of_isApproval hApproval⟩
  | case3 l past hOther ih =>
      rw [startsApproved] at h
      · obtain ⟨after, k, before, rfl, hApproved⟩ := ih h
        exact ⟨l :: after, k, before, rfl, hApproved⟩
      · exact hOther

/-- The peer approves the pairing, presents its key, and leaves before the key
exchange ends. -/
theorem leaving_run : ∃ past p s,
    Run (connSystem editsNothing) ((Attempt.client slave).prog plainSodium) leavingWorld past p s ∧
      (storedEarly ⟨past, p, s⟩ && startsApproved past) = true :=
  (connPlayer editsNothing).exists_run _ _ leavingCues (fun c => storedEarly c && startsApproved c.past)
    (by decide +kernel)

/-- The run of Noise IK fails in the end, and the key that was stored before
is still stored. -/
theorem attempt_store_leaving : ∃ past p s,
    Run (connSystem editsNothing) ((Attempt.client slave).prog plainSodium) leavingWorld past p s ∧
    (∀ keys, .did (.openChannel keys) () ∉ past) ∧ ∃ after k before,
      past = after ++ .did (.remark (.ikStarts k)) () :: before ∧
      ∃ d, .did (.remember d k) () ∈ before ∧ Paired (.client slave) d k before ∧
        s.knownPeers = leavingWorld.knownPeers.remember d k := by
  obtain ⟨past, p, s, hRun, hCheck⟩ := leaving_run
  obtain ⟨hStored, hStarts⟩ := (Bool.and_eq_true _ _).mp hCheck
  simp only [storedEarly, Bool.and_eq_true] at hStored
  obtain ⟨after, k, before, hPast, hApproved⟩ := exists_starts hStarts
  refine ⟨past, p, s, hRun, fun keys hMem => ?_, after, k, before, hPast, ?_⟩
  · cases List.all_eq_true.mp hStored.1.2 _ hMem
  · exact (attempt_store hRun).2 after k before hPast hApproved

/-- The key stays stored although the key exchange has failed and no channel
was opened. -/
theorem attempt_stores_early : ∃ past s,
    Run (connSystem editsNothing) ((Attempt.client slave).prog plainSodium) leavingWorld past (.ret ()) s ∧
    (∀ keys, .did (.openChannel keys) () ∉ past) ∧ s.knownPeers ≠ leavingWorld.knownPeers := by
  obtain ⟨past, p, s, hRun, hCheck⟩ := leaving_run
  simp only [storedEarly, Bool.and_eq_true] at hCheck
  obtain ⟨⟨⟨hEnded, hChannel⟩, hKey⟩, -⟩ := hCheck
  obtain ⟨_, rfl⟩ := Prog.eq_ret_of_ended hEnded
  refine ⟨past, s, hRun, fun keys hMem => ?_, fun hSame => ?_⟩
  · cases List.all_eq_true.mp hChannel _ hMem
  · rw [hSame] at hKey
    cases hKey

end Instance

end NoCapKVM.Discovery.TrustChanges
