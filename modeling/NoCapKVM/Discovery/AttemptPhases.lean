import NoCapKVM.Discovery.World

/-! The phases of a `TcpClient`'s thread, and what its published state tells
about them. -/
namespace NoCapKVM.Discovery

open Thread TcpClient

/-- A `TcpClient` thread among any calls of other threads. -/
abbrev clientSystem : System Op Ans Action World :=
  connSystem fun _ => True

/-- Whether an event changes the phase of the thread: `some false` where an
attempt publishes its progress, and `some true` where it ends. -/
def phaseMark : ConnLabel → Option Bool
  | .did (.assignStatus _) _ => some false
  | .did (.updateStatus (.state _)) _ => some true
  | _ => none

/-- The thread is between two attempts or before the first one. -/
def Gap : List ConnLabel → Bool
  | [] => true
  | l :: past => (phaseMark l).getD (Gap past)

/-- An attempt begins. -/
def BeginsAttempt (o : Op) : Prop :=
  ∃ info, o = .assignStatus info ∧ info.state = .connecting

/-- How a handshake writes the status: it asks for a pairing, or fails. -/
def IsHandshakeOp : Op → Prop
  | .assignStatus info => info.state = .pairing ∧ info.goAwayReceived = false
  | .updateStatus u => u = .state .failed
  | _ => True

/-- How a client writes its status: an attempt publishes its progress, and
ends with `Failed`. -/
def IsClientOp : Op → Prop
  | .assignStatus info =>
      (info.state = .connecting ∨ info.state = .pairing ∨ info.state = .connected) ∧ info.goAwayReceived = false
  | .updateStatus (.state s) => s = .failed
  | _ => True

/-- How a session writes the status is one of the ways of a client. -/
theorem isClientOp_of_session {o : Op} (h : IsSessionOp o) : IsClientOp o := by
  cases o with
  | assignStatus info => exact h.elim
  | updateStatus u =>
      cases u with
      | state s => exact h.elim
      | _ => trivial
  | _ => trivial

/-- So is how a handshake does. -/
theorem isClientOp_of_handshake {o : Op} (h : IsHandshakeOp o) : IsClientOp o := by
  cases o with
  | assignStatus info => exact ⟨.inr (.inl h.1), h.2⟩
  | updateStatus u =>
      obtain rfl := h
      rfl
  | _ => trivial

/-- All that a handshake performs. -/
def IsHandshakeStep : Op → Prop
  | .now | .sendAll .. | .recvAll .. | .generateKeypair | .remark _ | .getPubkey _ | .remember .. | .closeSocket => True
  | .assignStatus info => info.state = .pairing ∧ info.Bare
  | .updateStatus u => u = .state .failed
  | _ => False

/-- The transfers are steps of a handshake. -/
theorem isHandshakeStep_of_transfer {o : Op} (h : IsTransfer o) : IsHandshakeStep o := by
  cases o <;> first
    | exact h.elim
    | trivial

variable {na : Sodium UInt8} {c : TcpClient}

/-- Giving up is one as well. -/
theorem abandon_steps {α : Type} (outcome : AttemptOutcome) :
    (abandon outcome : ConnProg (Except AttemptOutcome α)).Uses IsHandshakeStep :=
  abandon_uses (P := IsHandshakeStep) trivial rfl outcome

/-- The pairing consists of such steps. -/
theorem pair_steps (d : UInt64) : (pair na c d).Uses IsHandshakeStep := by
  refine ⟨trivial, fun _ => ?_⟩
  simp only [Prog.bind_def, Prog.ret_bind]
  refine (exchange_uses trivial trivial).bind fun received => ?_
  cases received with
  | none => exact abandon_steps _
  | some k =>
      refine ⟨⟨rfl, rfl⟩, fun _ => ⟨trivial, fun _ => ⟨trivial, fun decision => ?_⟩⟩⟩
      cases decision with
      | none => exact abandon_steps _
      | some b =>
          simp only [Prog.ret_bind]
          split
          · exact abandon_steps _
          · simp [IsHandshakeStep]

/-- So does the key exchange. -/
theorem initiateIk_steps (d : UInt64) (rs : Key32 UInt8) : (initiateIk na c d rs).Uses IsHandshakeStep :=
  initiateIk_uses (P := IsHandshakeStep) (fun _ o => (ikOp_uses o).mono fun _ => isHandshakeStep_of_transfer) trivial
    (fun _ => trivial) trivial rfl d rs

/-- And so does the handshake as a whole. -/
theorem handshake_steps : (handshake na c).Uses IsHandshakeStep := by
  refine ⟨trivial, fun _ => ?_⟩
  simp only [Prog.bind_def, Prog.ret_bind]
  refine (exchange_uses trivial trivial).bind fun received => ?_
  cases received with
  | none => exact abandon_steps _
  | some id =>
      refine ⟨trivial, fun rs => ⟨trivial, fun _ => ?_⟩⟩
      simp only [Prog.ret_bind]
      refine (exchange_uses trivial trivial).bind fun received => ?_
      cases received with
      | none => exact abandon_steps _
      | some flag =>
          have hBranch : (pair na c (decodeDeviceId id)).Uses IsHandshakeStep := pair_steps _
          have hPair : ((pair na c (decodeDeviceId id)).bind (initiateAfter na c (decodeDeviceId id))).Uses
              IsHandshakeStep := by
            refine hBranch.bind fun result => ?_
            cases result with
            | error outcome => exact trivial
            | ok rs => exact initiateIk_steps _ rs
          exact branch_cases na c _ rs (flag.only != 0) (P := (Prog.Uses IsHandshakeStep ·)) hPair
            fun rs _ _ => initiateIk_steps _ rs

/-- Each of these steps writes the status only as a handshake does. -/
theorem isHandshakeOp_of_step {o : Op} (h : IsHandshakeStep o) : IsHandshakeOp o := by
  cases o with
  | assignStatus info => exact ⟨h.1, congrArg ConnectionInfo.goAwayReceived h.2⟩
  | updateStatus u => exact h
  | _ => trivial

theorem handshake_writes : (handshake na c).Uses IsHandshakeOp :=
  handshake_steps.mono fun _ => isHandshakeOp_of_step

/-- A session writes the status only as a client does. -/
theorem session_client (d : UInt64) (ik : IkResult UInt8) : (session c d ik).Uses IsClientOp := by
  have hRound := fun x => (sessionRound_uses c x).mono fun _ => isClientOp_of_session
  simp [session, IsClientOp, hRound]

/-- So does an attempt, from its beginning to its end. -/
theorem runOnce_client : (runOnce na c).Uses IsClientOp := by
  apply runOnce_cases na c (C := IsClientOp) (fun o next hO hNext => ⟨hO, hNext⟩) ⟨.inl rfl, rfl⟩ trivial trivial
  · simp [IsClientOp]
  · simp [IsClientOp]
  · refine (handshake_writes.mono fun _ => isClientOp_of_handshake).bind fun result => ?_
    cases result with
    | error outcome => exact trivial
    | ok result => exact session_client _ _

/-- The operations of `run` outside its attempts. -/
def IsWait : Op → Prop
  | .loadRunning | .now | .sleepFor _ => True
  | _ => False

/-- A wait does nothing but sleep and look whether to go on. -/
theorem backOff_wait (giveUpDeadline backoff : Time) : (backOff giveUpDeadline backoff).Uses IsWait := by
  refine ⟨fun remaining => ?_, fun _ => trivial⟩
  simp only
  split
  · exact trivial
  · refine ⟨trivial, fun running => ?_⟩
    cases running with
    | false => exact trivial
    | true =>
        refine ⟨trivial, fun now => ?_⟩
        simp only [Prog.ret_bind]
        split
        · exact trivial
        · exact ⟨trivial, fun _ => trivial⟩

/-- What a round does after its attempt. -/
def afterAttempt (c : TcpClient) (x : Retry) (outcome : AttemptOutcome) : ConnProg (Retry ⊕ Unit) := do
  if outcome = .giveUp then return .inr ()
  if !(← perform .loadRunning) then return .inr ()
  if outcome = .retryFast then
    let giveUpDeadline := (← perform .now) + c.giveUpAfter
    backOff giveUpDeadline kInitialBackoff
    if (← perform .now) ≥ giveUpDeadline then return .inr ()
    return .inl { backoff := kInitialBackoff, giveUpDeadline := giveUpDeadline }
  else
    if (← perform .now) ≥ x.giveUpDeadline then return .inr ()
    backOff x.giveUpDeadline x.backoff
    if (← perform .now) ≥ x.giveUpDeadline then return .inr ()
    return .inl { x with backoff := min (x.backoff * 2) kMaxBackoff }

/-- A round is a look whether to go on, an attempt, and what follows the
attempt. -/
theorem runRound_eq (x : Retry) :
    runRound na c x = Prog.op .loadRunning fun running =>
      if running then (runOnce na c).bind (afterAttempt c x) else .ret (.inr ()) := by
  refine congrArg (Prog.op Op.loadRunning) (funext fun running => ?_)
  cases running <;> rfl

/-- What follows an attempt is a wait, or the end of the loop. -/
theorem afterAttempt_wait (x : Retry) (outcome : AttemptOutcome) : (afterAttempt c x outcome).Uses IsWait := by
  have hWait : ∀ (deadline backoff : Time) (y : Retry),
      ((backOff deadline backoff).bind fun _ => Prog.op Op.now fun now =>
        if now ≥ deadline then (.ret (.inr ()) : ConnProg (Retry ⊕ Unit)) else .ret (.inl y)).Uses IsWait := by
    intro deadline backoff y
    refine (backOff_wait deadline backoff).bind fun _ => ⟨trivial, fun now => ?_⟩
    simp only
    split <;> exact trivial
  unfold afterAttempt
  split
  · exact trivial
  · refine ⟨trivial, fun running => ?_⟩
    cases running with
    | false => exact trivial
    | true =>
        simp only [Prog.ret_bind, Bool.not_true, Bool.false_eq_true, if_false]
        split
        · exact ⟨trivial, fun now => hWait _ _ _⟩
        · refine ⟨trivial, fun now => ?_⟩
          simp only [Prog.ret_bind]
          split
          · exact trivial
          · exact hWait _ _ _

theorem isClientOp_of_wait {o : Op} (h : IsWait o) : IsClientOp o := by
  cases o <;> first
    | exact h.elim
    | trivial

/-- A condition that the waits and the attempts meet is met by the
whole thread. -/
theorem run_uses {P : Op → Prop} (hWait : ∀ o, IsWait o → P o) (hAttempt : (runOnce na c).Uses P) : (run na c).Uses P := by
  refine ⟨hWait _ trivial, fun now => ⟨fun x => ?_, fun _ => trivial⟩⟩
  rw [runRound_eq]
  refine ⟨hWait _ trivial, fun running => ?_⟩
  cases running with
  | false => exact trivial
  | true => exact hAttempt.bind fun outcome => (afterAttempt_wait x outcome).mono hWait

/-- So the thread writes its status only as a client does, in every run. -/
theorem run_client : (run na c).Uses IsClientOp :=
  run_uses (fun _ => isClientOp_of_wait) runOnce_client

/-- The client publishes `Idle` or `Failed` exactly in the gaps of its
attempts. -/
def Telling (past : List ConnLabel) (s : World) : Prop :=
  Gap past = true ↔ s.status.state = .idle ∨ s.status.state = .failed

/-- The other threads do not write it. -/
theorem act_status (a : Action) (s : World) : (s.act a).status = s.status := by
  cases a <;> rfl

/-- Operations other than the two on the status leave it. -/
theorem exec_status {o : Op} {s s' : World} {r : Ans o} (h : s.exec o r s')
    (hAssign : ∀ info, o ≠ .assignStatus info) (hUpdate : ∀ u, o ≠ .updateStatus u) : s'.status = s.status := by
  obtain ⟨_, _, _, -, rfl⟩ := World.exec_writes h
  cases o with
  | assignStatus info => exact absurd rfl (hAssign info)
  | updateStatus u => exact absurd rfl (hUpdate u)
  | _ => rfl

/-- The phase changes only when the status is written. -/
theorem phaseMark_none {o : Op} {r : Ans o} (hAssign : ∀ info, o ≠ .assignStatus info)
    (hUpdate : ∀ u, o ≠ .updateStatus u) : phaseMark (.did o r) = none := by
  cases o with
  | assignStatus info => exact absurd rfl (hAssign info)
  | updateStatus u => exact absurd rfl (hUpdate u)
  | _ => rfl

/-- Each way to write the status tells the phase that it begins. -/
theorem telling_exec {o : Op} {past : List ConnLabel} {s s' : World} {r : Ans o} (hO : IsClientOp o)
    (h : Telling past s) (hExec : s.exec o r s') : Telling (.did o r :: past) s' := by
  unfold Telling Gap
  by_cases hAssign : ∃ info, o = .assignStatus info
  · obtain ⟨info, rfl⟩ := hAssign
    obtain rfl := hExec
    show false = true ↔ info.state = .idle ∨ info.state = .failed
    rcases hO.1 with hState | hState | hState <;> rw [hState] <;> simp
  by_cases hUpdate : ∃ u, o = .updateStatus u
  · obtain ⟨u, rfl⟩ := hUpdate
    obtain rfl := hExec
    cases u with
    | state state =>
        obtain rfl := hO
        exact ⟨fun _ => .inr rfl, fun _ => rfl⟩
    | _ => exact h
  have hAssign : ∀ info, o ≠ .assignStatus info := fun info hEq => hAssign ⟨info, hEq⟩
  have hUpdate : ∀ u, o ≠ .updateStatus u := fun u hEq => hUpdate ⟨u, hEq⟩
  rw [phaseMark_none hAssign hUpdate, exec_status hExec hAssign hUpdate]
  exact h

/-- In every run of a client its thread performs nothing else. -/
theorem client_safe (init : World) :
    Safe clientSystem (fun o _ _ => IsClientOp o) (run na c) (fun _ _ _ => True) [] init :=
  (Safe.frame (fun _ _ => True) (fun _ _ _ _ _ _ => trivial) (fun _ _ _ hO _ => hO)
    (fun _ _ _ _ _ _ _ _ => trivial) run_client trivial)

/-- In every run of a client, among any calls of other threads. -/
theorem client_telling {past : List ConnLabel} {p : ConnProg Unit} {init s : World}
    (hInit : init.status.state = .idle) (h : Run clientSystem (run na c) init past p s) : Telling past s := by
  have hStable : Stable clientSystem Telling := by
    rintro past s a s' h ⟨-, rfl⟩
    show Gap past = true ↔ (s.act a).status.state = .idle ∨ (s.act a).status.state = .failed
    rw [act_status]
    exact h
  exact (client_safe init).invariant Telling hStable (fun o past s r s' hO hTelling hExec => telling_exec hO hTelling hExec)
    ⟨fun _ => .inl hInit, fun _ => rfl⟩ h

end NoCapKVM.Discovery
