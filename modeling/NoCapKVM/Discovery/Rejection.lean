import NoCapKVM.Discovery.AttemptPhases

/-! A rejected pairing ends a `TcpClient`'s thread. -/
namespace NoCapKVM.Discovery

open Thread TcpClient

/-- The peer has answered a pairing request with a decision byte other than
approval. -/
def IsRejection (l : ConnLabel) : Prop :=
  ∃ deadline b, l = .did (.recvAll .decision 1 deadline) (some b) ∧ b.only ≠ kPairingApproved

variable {na : Sodium UInt8} {c : TcpClient}

def Rejected (past : List ConnLabel) : Prop :=
  ∃ l ∈ past, IsRejection l

/-- No attempt begins after a rejection. -/
def once (o : Op) (past : List ConnLabel) (_ : World) : Prop :=
  BeginsAttempt o → ¬ Rejected past

def Unrejected (past : List ConnLabel) (_ : World) : Prop :=
  ¬ Rejected past

/-- A round goes on only if it was not rejected. -/
def UnlessGivenUp (outcome : AttemptOutcome) (past : List ConnLabel) (_ : World) : Prop :=
  outcome ≠ .giveUp → ¬ Rejected past

/-- Operations that receive no decision. -/
def IsUndecided : Op → Prop
  | .recvAll .decision _ _ => False
  | _ => True

/-- A decision is received by this thread only. -/
theorem unrejected_stable : Stable clientSystem Unrejected := by
  rintro past s a s' h - ⟨l, hMem, deadline, b, rfl, hByte⟩
  rcases List.mem_cons.mp hMem with hEq | hMem
  · cases hEq
  · exact h ⟨_, hMem, deadline, b, rfl, hByte⟩

/-- So the verdict on a round does not depend on the other threads. -/
theorem unlessGivenUp_stable (outcome : AttemptOutcome) : Stable clientSystem (UnlessGivenUp outcome) :=
  fun past s a s' h hEnv hGoes => unrejected_stable past s a s' (h hGoes) hEnv

/-- Only a decision byte can reject a pairing. -/
theorem unrejected_cons {l : ConnLabel} {past : List ConnLabel} (hLabel : ¬ IsRejection l)
    (h : ¬ Rejected past) : ¬ Rejected (l :: past) := by
  rintro ⟨l', hMem, hRejection⟩
  rcases List.mem_cons.mp hMem with rfl | hMem
  · exact hLabel hRejection
  · exact h ⟨l', hMem, hRejection⟩

/-- Operations that receive no decision reject nothing. -/
theorem not_isRejection {o : Op} (hO : IsUndecided o) (r : Ans o) : ¬ IsRejection (.did o r) := by
  rintro ⟨deadline, b, hEq, -⟩
  injection hEq with hOp
  rw [hOp] at hO
  exact hO

/-- The part of a program that receives no decision. -/
theorem undecided_safe {α : Type} {p : ConnProg α} (hP : p.Uses IsUndecided) {past : List ConnLabel} {s : World}
    (h : ¬ Rejected past) : Safe clientSystem once p (fun _ => Unrejected) past s := by
  refine Safe.frame Unrejected unrejected_stable ?_ ?_ hP h
  · exact fun o past s _ h _ => h
  · exact fun o past s r s' hO h _ => unrejected_cons (not_isRejection hO r) h

/-- One operation that receives no decision. -/
theorem undecided_op {α : Type} {o : Op} {next : Ans o → ConnProg α} {Q : α → Assertion Op Ans Action World}
    {past : List ConnLabel} {s : World} (hO : IsUndecided o) (h : ¬ Rejected past)
    (hNext : ∀ r past s, ¬ Rejected past → Safe clientSystem once (next r) Q past s) :
    Safe clientSystem once (.op o next) Q past s :=
  .op Unrejected unrejected_stable h (fun _ _ h _ => h)
    fun _ _ r s' h _ => hNext r _ s' (unrejected_cons (not_isRejection hO r) h)

/-- Nor do the exchanges of the other parts of a handshake. -/
theorem undecided_exchange {α : Type} {phase : Phase} {sent : List UInt8} {len : Nat} {deadline : Time}
    {next : Option (Bytes UInt8 len) → ConnProg α} {Q : α → Assertion Op Ans Action World}
    {past : List ConnLabel} {s : World} (hPhase : phase ≠ .decision) (h : ¬ Rejected past)
    (hNext : ∀ r past s, ¬ Rejected past → Safe clientSystem once (next r) Q past s) :
    Safe clientSystem once ((exchange phase sent len deadline).bind next) Q past s := by
  refine undecided_op trivial h fun sent past s h => ?_
  cases sent with
  | false => exact hNext none past s h
  | true =>
      refine undecided_op ?_ h hNext
      cases phase <;> first
        | exact absurd rfl hPhase
        | trivial

/-- A session receives no decision on a pairing. -/
theorem undecided_of_session {o : Op} (h : IsSessionOp o) : IsUndecided o := by
  cases o <;> first
    | exact h.elim
    | trivial

/-- Nor does a wait between two attempts. -/
theorem undecided_of_wait {o : Op} (h : IsWait o) : IsUndecided o := by
  cases o <;> first
    | exact h.elim
    | trivial

theorem abandon_undecided {α : Type} (outcome : AttemptOutcome) :
    (abandon outcome : ConnProg (Except AttemptOutcome α)).Uses IsUndecided :=
  abandon_uses trivial trivial outcome

/-- The key exchange receives none either. -/
theorem initiateIk_undecided (d : UInt64) (rs : Key32 UInt8) : (initiateIk na c d rs).Uses IsUndecided :=
  initiateIk_uses (fun _ o => by cases o <;> exact ⟨trivial, fun _ => trivial⟩) trivial (fun _ => trivial) trivial trivial d rs

theorem session_undecided (d : UInt64) (ik : IkResult UInt8) : (session c d ik).Uses IsUndecided := by
  have hRound := fun x => (sessionRound_uses c x).mono fun _ => undecided_of_session
  simp [session, IsUndecided, hRound]

/-- An error other than giving up, or a result, means that nothing was
rejected. -/
def UnlessError {α : Type} (result : Except AttemptOutcome α) (past : List ConnLabel) (_ : World) : Prop :=
  result ≠ .error .giveUp → ¬ Rejected past

theorem unlessError_stable {α : Type} (result : Except AttemptOutcome α) :
    Stable clientSystem (UnlessError result) :=
  fun past s a s' h hEnv hGoes => unrejected_stable past s a s' (h hGoes) hEnv

/-- A program that receives no decision may end with any error. -/
theorem undecided_unless {α : Type} {p : ConnProg (Except AttemptOutcome α)} (hP : p.Uses IsUndecided)
    {past : List ConnLabel} {s : World} (h : ¬ Rejected past) :
    Safe clientSystem once p UnlessError past s := by
  refine (undecided_safe hP h).mono ?_
  exact fun _ _ _ h _ => h

/-- A client that gives up may have been rejected. This is the only end that a
rejection has. -/
theorem abandon_giveUp_safe {α : Type} (past : List ConnLabel) (s : World) :
    Safe clientSystem once (abandon .giveUp : ConnProg (Except AttemptOutcome α)) UnlessError past s := by
  have hClose : ∀ past s, once .closeSocket past s := fun _ _ ⟨_, hEq, _⟩ => nomatch hEq
  have hFailed : ∀ past s, once (.updateStatus (.state .failed)) past s := fun _ _ ⟨_, hEq, _⟩ => nomatch hEq
  refine .op_any hClose (fun _ past s => ?_) past s
  refine .op_any hFailed (fun _ past s => ?_) past s
  exact Safe.ret (unlessError_stable _) fun hGoes => absurd rfl hGoes

/-- A pairing that was rejected ends with giving up. -/
theorem pair_once (d : UInt64) {past : List ConnLabel} {s : World} (h : ¬ Rejected past) :
    Safe clientSystem once (pair na c d) UnlessError past s := by
  refine undecided_op trivial h fun now past s h => ?_
  simp only [Prog.bind_def, Prog.ret_bind]
  refine undecided_exchange nofun h fun received past s h => ?_
  cases received with
  | none => exact undecided_unless (abandon_undecided _) h
  | some k =>
      refine undecided_op trivial h fun _ past s h => ?_
      refine undecided_op trivial h fun now past s h => ?_
      refine .op Unrejected unrejected_stable h (fun _ _ h _ => h) fun past s decision s' h _ => ?_
      cases decision with
      | none =>
          refine undecided_unless (abandon_undecided _) (unrejected_cons ?_ h)
          rintro ⟨_, _, hEq, -⟩
          cases hEq
      | some b =>
          simp only [Prog.ret_bind]
          by_cases hByte : b.only = kPairingApproved
          · simp only [hByte, ne_eq, not_true_eq_false, if_false]
            have hStore : (Prog.op (.remember d k) fun _ => .ret (.ok k) :
                ConnProg (Except AttemptOutcome (Key32 UInt8))).Uses IsUndecided :=
              ⟨trivial, fun _ => trivial⟩
            refine undecided_unless hStore (unrejected_cons ?_ h)
            rintro ⟨_, b', hEq, hOther⟩
            cases hEq
            exact hOther hByte
          · simp only [ne_eq, hByte, not_false_eq_true, if_true]
            exact abandon_giveUp_safe _ _

/-- So does a handshake. -/
theorem handshake_once {past : List ConnLabel} {s : World} (h : ¬ Rejected past) :
    Safe clientSystem once (handshake na c) UnlessError past s := by
  refine undecided_op trivial h fun now past s h => ?_
  simp only [Prog.bind_def, Prog.ret_bind]
  refine undecided_exchange nofun h fun received past s h => ?_
  cases received with
  | none => exact undecided_unless (abandon_undecided _) h
  | some id =>
      refine undecided_op trivial h fun rs past s h => ?_
      refine undecided_op trivial h fun now past s h => ?_
      simp only [Prog.ret_bind]
      refine undecided_exchange nofun h fun received past s h => ?_
      cases received with
      | none => exact undecided_unless (abandon_undecided _) h
      | some flag =>
          have hPair : Safe clientSystem once
              ((pair na c (decodeDeviceId id)).bind (initiateAfter na c (decodeDeviceId id))) UnlessError past s := by
            refine pair_initiate_safe (pair_once (decodeDeviceId id) h) (fun outcome past s hResult => ?_)
              fun rs _ _ hResult => undecided_unless (initiateIk_undecided _ rs) (hResult nofun)
            exact Safe.ret (unlessError_stable _) fun hGoes => hResult fun hEq => hGoes (by cases hEq; rfl)
          exact branch_cases na c _ rs (flag.only != 0) (P := (Safe clientSystem once · UnlessError past s)) hPair
            fun rs _ _ =>
            undecided_unless (initiateIk_undecided _ rs) h

/-- And so does an attempt, so that a round goes on only if nothing was
rejected. -/
theorem runOnce_once {past : List ConnLabel} {s : World} (h : ¬ Rejected past) :
    Safe clientSystem once (runOnce na c) UnlessGivenUp past s := by
  have hEnd : ∀ {p : ConnProg AttemptOutcome}, p.Uses IsUndecided → ∀ past s, ¬ Rejected past →
      Safe clientSystem once p UnlessGivenUp past s := by
    intro p hP past s h
    refine (undecided_safe hP h).mono ?_
    exact fun _ _ _ h _ => h
  apply runOnce_cases na c (C := IsUndecided)
    (M := fun p => ∀ past s, ¬ Rejected past → Safe clientSystem once p UnlessGivenUp past s)
    (fun o next hO hNext past s h => undecided_op hO h hNext) trivial trivial trivial
  · exact hEnd ⟨trivial, fun _ => trivial⟩
  · exact hEnd ⟨trivial, fun _ => ⟨trivial, fun _ => trivial⟩⟩
  · intro past s h
    refine Safe.bind ((handshake_once h).mono fun result past s hResult => ?_)
    cases result with
    | error outcome =>
        exact Safe.ret (unlessGivenUp_stable _) fun hGoes => hResult fun hEq => hGoes (by cases hEq; rfl)
    | ok result => exact hEnd (session_undecided _ _) past s (hResult nofun)
  · exact h

/-- The thread of a client begins no attempt once its peer has rejected it. -/
theorem run_once_rejected (past : List ConnLabel) (s : World) (h : ¬ Rejected past) :
    Safe clientSystem once (run na c) (fun _ _ _ => True) past s := by
  have hTrue : Stable clientSystem fun _ _ => True := fun _ _ _ _ _ _ => trivial
  refine undecided_op trivial h fun now past s h => ?_
  simp only [Prog.ret_bind]
  refine .iterate (fun _ => Unrejected) (fun _ => unrejected_stable) (fun _ => hTrue) h fun x past s h => ?_
  rw [runRound_eq]
  refine undecided_op trivial h fun running past s h => ?_
  cases running with
  | false => exact .ret hTrue trivial
  | true =>
      refine Safe.bind ((runOnce_once h).mono fun outcome past s hOutcome => ?_)
      by_cases hGiveUp : outcome = .giveUp
      · rw [afterAttempt, if_pos hGiveUp]
        exact Safe.ret hTrue trivial
      · refine (undecided_safe ((afterAttempt_wait x outcome).mono fun _ => undecided_of_wait)
          (hOutcome hGiveUp)).mono fun next past s h => ?_
        cases next with
        | inl y => exact h
        | inr _ => exact trivial

/-- In every run, an attempt begins only if no pairing was rejected before. -/
theorem client_rejected {past : List ConnLabel} {o : Op} {next : Ans o → ConnProg Unit} {init s : World}
    (h : Run clientSystem (run na c) init past (.op o next) s) (hBegins : BeginsAttempt o) : ¬ Rejected past :=
  (run_once_rejected [] init (fun ⟨_, hMem, _⟩ => nomatch hMem)).ok_of_run h hBegins

end NoCapKVM.Discovery
