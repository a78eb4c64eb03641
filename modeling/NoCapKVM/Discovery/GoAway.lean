import NoCapKVM.Discovery.AttemptPhases

/-! What a `TcpClient`'s thread does after a go-away. Its retry loop does not look at
the flag, so only a call of `stop` keeps it from the next attempt. -/
namespace NoCapKVM.Discovery

open Thread TcpClient

variable {na : Sodium UInt8} {c : TcpClient}

/-- A go-away was received since the status was last assigned. -/
def SentAway : List ConnLabel → Bool
  | .did (.updateStatus .goAwayReceived) _ :: _ => true
  | .did (.assignStatus _) _ :: _ => false
  | _ :: past => SentAway past
  | [] => false

/-- How long the thread has slept since then. -/
def slept : List ConnLabel → Time
  | .did (.sleepFor duration) _ :: past => slept past + duration
  | .did (.assignStatus _) _ :: _ => 0
  | _ :: past => slept past
  | [] => 0

/-- Whenever the thread looked whether it should go on after a go-away and the
wait that follows the connection, it had been stopped. -/
def Heeded : List ConnLabel → Prop
  | .did .loadRunning true :: past => ¬ (SentAway past = true ∧ kInitialBackoff ≤ slept past) ∧ Heeded past
  | _ :: past => Heeded past
  | [] => True

/-- Nobody has sent the client away. -/
def Welcome (past : List ConnLabel) (_ : World) : Prop :=
  Heeded past → SentAway past = false

/-- A go-away comes on a connection only, and is the last that a
status tells. -/
def leaves (o : Op) (past : List ConnLabel) (s : World) : Prop :=
  (o = .updateStatus .goAwayReceived → s.status.state = .connected) ∧
    ∀ info, o = .assignStatus info → Welcome past s

/-- Operations other than those that tell of a go-away. -/
def IsQuiet : Op → Prop
  | .updateStatus .goAwayReceived => False
  | _ => True

/-- A past without a mistake had none before its last event. -/
theorem heeded_cons {l : ConnLabel} {past : List ConnLabel} (h : Heeded (l :: past)) : Heeded past := by
  cases l with
  | env a => exact h
  | did o r =>
      cases o with
      | loadRunning =>
          cases r with
          | true => exact h.2
          | false => exact h
      | _ => exact h

/-- Operations that tell of no go-away leave the client welcome. -/
theorem sentAway_cons {o : Op} {r : Ans o} {past : List ConnLabel} (hO : IsQuiet o)
    (h : SentAway past = false) : SentAway (.did o r :: past) = false := by
  cases o with
  | updateStatus u =>
      cases u with
      | goAwayReceived => exact hO.elim
      | _ => exact h
  | assignStatus info => rfl
  | _ => exact h

/-- A go-away is told by this thread only. -/
theorem welcome_stable : Stable clientSystem Welcome :=
  fun _ _ _ _ h _ => h

/-- A part of the program that is not told of a go-away. -/
theorem welcome_safe {α : Type} {p : ConnProg α} (hP : p.Uses IsQuiet) {past : List ConnLabel} {s : World}
    (h : Welcome past s) : Safe clientSystem leaves p (fun _ => Welcome) past s := by
  refine Safe.frame Welcome welcome_stable ?_ ?_ hP h
  · intro o past s hO h
    refine ⟨?_, fun _ _ => h⟩
    rintro rfl
    exact hO.elim
  · exact fun o past s r s' hO h _ hHeeded => sentAway_cons hO (h (heeded_cons hHeeded))

theorem welcome_op {α : Type} {o : Op} {next : Ans o → ConnProg α} {Q : α → Assertion Op Ans Action World}
    {past : List ConnLabel} {s : World} (hO : IsQuiet o) (h : Welcome past s)
    (hNext : ∀ r past s, Welcome past s → Safe clientSystem leaves (next r) Q past s) :
    Safe clientSystem leaves (.op o next) Q past s := by
  refine .op Welcome welcome_stable h ?_ ?_
  · intro past s h
    refine ⟨?_, fun _ _ => h⟩
    rintro rfl
    exact hO.elim
  · exact fun past s r s' h _ => hNext r _ s' fun hHeeded => sentAway_cons hO (h (heeded_cons hHeeded))

/-- In a handshake no go-away can come. -/
theorem isQuiet_of_handshake {o : Op} (h : IsHandshakeOp o) : IsQuiet o := by
  cases o with
  | updateStatus u =>
      obtain rfl := h
      trivial
  | _ => trivial

/-- Nor can it in a wait between two attempts. -/
theorem isQuiet_of_wait {o : Op} (h : IsWait o) : IsQuiet o := by
  cases o <;> first
    | exact h.elim
    | trivial

/-- What a message loop leaves as it is. -/
def Up (_ : List ConnLabel) (s : World) : Prop :=
  s.status.state = .connected

/-- That the connection is up is written by this thread only. -/
theorem up_stable : Stable clientSystem Up := by
  rintro past s a s' h ⟨-, rfl⟩
  show (s.act a).status.state = .connected
  rw [act_status]
  exact h

/-- The operations of a session leave the connection up, until
its loop ends. -/
theorem up_exec {o : Op} {past : List ConnLabel} {s s' : World} {r : Ans o} (hO : IsSessionOp o)
    (h : Up past s) (hExec : s.exec o r s') : Up (.did o r :: past) s' := by
  by_cases hUpdate : ∃ u, o = .updateStatus u
  · obtain ⟨u, rfl⟩ := hUpdate
    obtain rfl := hExec
    cases u with
    | state state => exact hO.elim
    | _ => exact h
  · have hAssign : ∀ info, o ≠ .assignStatus info := by
      rintro info rfl
      exact hO
    have hStatus := exec_status hExec hAssign fun u hEq => hUpdate ⟨u, hEq⟩
    exact (congrArg ConnectionInfo.state hStatus).trans h

/-- A part of a session keeps it up. -/
theorem up_safe {α : Type} {p : ConnProg α} (hP : p.Uses IsSessionOp) {past : List ConnLabel} {s : World}
    (h : Up past s) : Safe clientSystem leaves p (fun _ => Up) past s := by
  refine Safe.frame Up up_stable ?_ (fun _ _ _ _ _ hO h hExec => up_exec hO h hExec) hP h
  intro o past s hO h
  refine ⟨fun _ => h, ?_⟩
  rintro info rfl
  exact hO.elim

/-- Operations that do not write the status. -/
def IsSilent : Op → Prop
  | .assignStatus _ | .updateStatus _ => False
  | _ => True

/-- Only writing the status has a condition. -/
theorem leaves_of_silent {o : Op} (hO : IsSilent o) (past : List ConnLabel) (s : World) : leaves o past s := by
  refine ⟨?_, ?_⟩
  · rintro rfl
    exact hO.elim
  · rintro info rfl
    exact hO.elim

/-- The status of a failed attempt tells of no go-away. -/
theorem leaves_failed (past : List ConnLabel) (s : World) : leaves (.updateStatus (.state .failed)) past s :=
  ⟨nofun, nofun⟩

theorem up_op {α : Type} {o : Op} {next : Ans o → ConnProg α} {Q : α → Assertion Op Ans Action World}
    {past : List ConnLabel} {s : World} (hO : IsSilent o) (h : Up past s)
    (hNext : ∀ r past s, Up past s → Safe clientSystem leaves (next r) Q past s) :
    Safe clientSystem leaves (.op o next) Q past s := by
  refine .op Up up_stable h (fun past s _ => leaves_of_silent hO past s) fun past s r s' h hExec => hNext r _ s' ?_
  have hAssign : ∀ info, o ≠ .assignStatus info := by
    rintro info rfl
    exact hO
  have hUpdate : ∀ u, o ≠ .updateStatus u := by
    rintro u rfl
    exact hO
  exact (congrArg ConnectionInfo.state (exec_status hExec hAssign hUpdate)).trans h

/-- A go-away ends the session that it comes in, and the attempt is then
retried quickly. -/
theorem session_leaves (d : UInt64) (ik : IkResult UInt8) {past : List ConnLabel} {s : World}
    (h : Welcome past s) :
    Safe clientSystem leaves (session c d ik) (fun outcome _ _ => outcome = .retryFast) past s := by
  have hEnd : ∀ outcome : AttemptOutcome, Stable clientSystem fun _ _ => outcome = .retryFast :=
    fun _ _ _ _ _ h _ => h
  refine .op Welcome welcome_stable h (fun past s h => ⟨nofun, fun _ _ => h⟩) fun past s _ s' _ hExec => ?_
  obtain rfl := hExec
  refine up_op trivial rfl fun _ past s h => ?_
  refine up_op trivial h fun _ past s h => ?_
  refine up_op trivial h fun monitors past s h => ?_
  refine up_op trivial h fun _ past s h => ?_
  refine up_op trivial h fun _ past s h => ?_
  refine up_op trivial h fun _ past s h => ?_
  refine up_op trivial h fun _ past s h => ?_
  refine up_op trivial h fun _ past s h => ?_
  simp only [Prog.ret_bind]
  have hRound : ∀ x, (Prog.iterate x (sessionRound c)).Uses IsSessionOp := fun x =>
    ⟨fun y => sessionRound_uses c y, fun _ => trivial⟩
  refine Safe.bind ((up_safe (hRound _) h).mono fun _ past s _ => ?_)
  refine .op_any (leaves_of_silent (o := .setActiveChannel false) trivial) (fun _ past s => ?_) past s
  refine .op_any (leaves_of_silent (o := .closeSocket) trivial) (fun _ past s => ?_) past s
  refine .op_any leaves_failed (fun _ past s => ?_) past s
  exact Safe.ret (hEnd _) rfl

/-- An attempt that has not come up leaves the status untold of a go-away. -/
def UnlessUp (outcome : AttemptOutcome) (past : List ConnLabel) (s : World) : Prop :=
  outcome ≠ .retryFast → Welcome past s

/-- So an attempt that has not come up has told of no go-away. -/
theorem runOnce_leaves {past : List ConnLabel} {s : World} (h : Welcome past s) :
    Safe clientSystem leaves (runOnce na c) UnlessUp past s := by
  have hStable : ∀ outcome, Stable clientSystem (UnlessUp outcome) := fun _ _ _ _ _ h _ => h
  have hEnd : ∀ {p : ConnProg AttemptOutcome}, p.Uses IsQuiet → ∀ past s, Welcome past s →
      Safe clientSystem leaves p UnlessUp past s := by
    intro p hP past s h
    refine (welcome_safe hP h).mono ?_
    exact fun _ _ _ h _ => h
  apply runOnce_cases na c (C := IsQuiet)
    (M := fun p => ∀ past s, Welcome past s → Safe clientSystem leaves p UnlessUp past s)
    (fun o next hO hNext past s h => welcome_op hO h hNext) trivial trivial trivial
  · exact hEnd ⟨trivial, fun _ => trivial⟩
  · exact hEnd ⟨trivial, fun _ => ⟨trivial, fun _ => trivial⟩⟩
  · intro past s h
    have hHandshake : (handshake na c).Uses IsHandshakeOp := handshake_writes
    refine Safe.bind ((welcome_safe (hHandshake.mono fun _ => isQuiet_of_handshake) h).mono fun result past s h => ?_)
    cases result with
    | error outcome => exact Safe.ret (hStable outcome) fun _ => h
    | ok result =>
        refine (session_leaves _ _ h).mono ?_
        exact fun outcome _ _ hUp hNot => absurd hUp hNot
  · exact h

/-- After a wait of `backoff`, unless it was cut short. -/
def Waited (giveUpDeadline backoff : Time) (past : List ConnLabel) (s : World) : Prop :=
  backoff ≤ slept past ∨ s.running = false ∨ giveUpDeadline ≤ s.clock

/-- What is left to sleep and what was slept make up the wait. -/
def Resting (backoff remaining : Time) (past : List ConnLabel) (_ : World) : Prop :=
  backoff ≤ remaining + slept past

/-- A client that was told to stop is not started again by the
other threads. -/
theorem act_running (a : Action) {s : World} (h : s.running = false) : (s.act a).running = false := by
  cases a <;> first
    | exact h
    | rfl

theorem act_clock (a : Action) (s : World) : (s.act a).clock = s.clock := by
  cases a <;> rfl

/-- A wait that has passed has passed, and a client that was
stopped stays so. -/
theorem waited_stable (giveUpDeadline backoff : Time) : Stable clientSystem (Waited giveUpDeadline backoff) := by
  rintro past s a s' h ⟨-, rfl⟩
  rcases h with hSlept | hStopped | hLate
  · exact .inl hSlept
  · exact .inr (.inl (act_running a hStopped))
  · refine .inr (.inr ?_)
    rw [act_clock]
    exact hLate

/-- Each sleep takes its part from what is left of the wait. -/
theorem resting_sleep {backoff remaining step : Time} {past : List ConnLabel} {s : World}
    (h : Resting backoff remaining past s) (hStep : step ≤ remaining) (s' : World) :
    Resting backoff (remaining - step) (.did (.sleepFor step) () :: past) s' := by
  show backoff ≤ remaining - step + (slept past + step)
  rw [Nat.add_comm (slept past), ← Nat.add_assoc, Nat.sub_add_cancel hStep]
  exact h

/-- A wait ends when its time is up, when the client is told to stop, or when
it gives up. -/
theorem backOff_waited (giveUpDeadline backoff : Time) (past : List ConnLabel) (s : World) :
    Safe clientSystem leaves (backOff giveUpDeadline backoff) (fun _ => Waited giveUpDeadline backoff) past s := by
  have hWaited := waited_stable giveUpDeadline backoff
  have hI : ∀ remaining, Stable clientSystem (Resting backoff remaining) := fun _ _ _ _ _ h _ => h
  have hDone : ∀ past s, Waited giveUpDeadline backoff past s → Safe clientSystem leaves (.ret (.inr ()))
      (fun e => Sum.elim (Resting backoff) (fun _ => Waited giveUpDeadline backoff) e) past s :=
    fun _ _ h => Safe.ret (a := Sum.inr ()) hWaited h
  refine .iterate (Resting backoff) hI (fun _ => hWaited) (Nat.le_add_right _ _) fun remaining past s h => ?_
  simp only
  split
  case isTrue hNone =>
    subst hNone
    exact hDone past s (.inl (Nat.zero_add (slept past) ▸ h))
  case isFalse =>
    refine .op (Resting backoff remaining) (hI remaining) h (fun past s _ => leaves_of_silent (o := .loadRunning) trivial past s) ?_
    rintro past _ running s h ⟨rfl, rfl⟩
    cases hRunning : s.running with
    | false => exact hDone _ _ (.inr (.inl hRunning))
    | true =>
        refine .op (Resting backoff remaining) (hI remaining) h (fun past s _ => leaves_of_silent (o := .now) trivial past s) ?_
        rintro past _ now s h ⟨-, rfl⟩
        simp only [Prog.ret_bind]
        split
        case isTrue hLate => exact hDone _ _ (.inr (.inr hLate))
        case isFalse =>
          refine .op (Resting backoff remaining) (hI remaining) h
            (fun past s _ => leaves_of_silent (o := .sleepFor _) trivial past s) ?_
          rintro past s - s' h -
          refine Safe.ret (a := Sum.inl _) (hI _) ?_
          exact resting_sleep h (Nat.min_le_left _ _) s'

/-- Before the next look whether to go on. -/
def Due (past : List ConnLabel) (s : World) : Prop :=
  Heeded past → SentAway past = true → kInitialBackoff ≤ slept past ∨ s.running = false

/-- The next look is due until the thread takes it. -/
theorem due_stable : Stable clientSystem Due := by
  rintro past s a s' h ⟨-, rfl⟩ hHeeded hAway
  exact (h hHeeded hAway).imp id (act_running a)

/-- A client that is welcome may look at any time. -/
theorem due_of_welcome {past : List ConnLabel} {s : World} (h : Welcome past s) : Due past s := by
  intro hHeeded hAway
  rw [h hHeeded] at hAway
  cases hAway

/-- What holds after a round: the next one is due, or there is none. -/
def Round (e : Retry ⊕ Unit) : Assertion Op Ans Action World :=
  Sum.elim (fun _ => Due) (fun _ _ _ => True) e

/-- After the last round there is no look any more. -/
theorem round_end (past : List ConnLabel) (s : World) :
    Safe clientSystem leaves (.ret (.inr ())) Round past s :=
  Safe.ret (a := Sum.inr ()) (fun _ _ _ _ _ _ => trivial) trivial

/-- After an attempt the next look is due once the wait is over. -/
theorem afterAttempt_due (x : Retry) {outcome : AttemptOutcome} {past : List ConnLabel} {s : World}
    (h : UnlessUp outcome past s) : Safe clientSystem leaves (afterAttempt c x outcome) Round past s := by
  by_cases hUp : outcome = .retryFast
  · subst hUp
    have hLook := leaves_of_silent (o := .loadRunning) trivial
    have hNow := leaves_of_silent (o := .now) trivial
    refine .op_any hLook (fun running past s => ?_) past s
    cases running with
    | false => exact round_end past s
    | true =>
        refine .op_any hNow (fun start past s => ?_) past s
        simp only [Prog.bind_def, Prog.ret_bind]
        refine Safe.bind ((backOff_waited _ _ past s).mono fun _ past s hWaited => ?_)
        refine .op _ (waited_stable _ _) hWaited (fun past s _ => hNow past s) ?_
        rintro past s₀ now s hWaited ⟨hLater, rfl⟩
        simp only [Prog.ret_bind]
        split
        case isTrue => exact round_end _ _
        case isFalse hEarly =>
          refine Safe.ret (a := Sum.inl _) due_stable fun _ _ => ?_
          rcases hWaited with hSlept | hStopped | hLate
          · exact .inl hSlept
          · exact .inr hStopped
          · exact absurd (Nat.le_trans hLate hLater) hEarly
  · refine (welcome_safe ((afterAttempt_wait x outcome).mono fun _ => isQuiet_of_wait) (h hUp)).mono ?_
    intro e past s h
    cases e with
    | inl y => exact due_of_welcome h
    | inr _ => exact trivial

/-- As long as its calls are heeded, the thread of a client that was sent away
begins no attempt. -/
theorem run_leaves (s : World) : Safe clientSystem leaves (run na c) (fun _ _ _ => True) [] s := by
  have hTrue : Stable clientSystem fun _ _ => True := fun _ _ _ _ _ _ => trivial
  refine welcome_op trivial (fun _ => rfl) fun now past s h => ?_
  simp only [Prog.ret_bind]
  refine .iterate (fun _ => Due) (fun _ => due_stable) (fun _ => hTrue) (due_of_welcome h) fun x past s h => ?_
  rw [runRound_eq]
  refine .op Due due_stable h (fun past s _ => leaves_of_silent (o := .loadRunning) trivial past s) ?_
  rintro past _ running s h ⟨rfl, rfl⟩
  cases hRunning : s.running with
  | false => exact round_end _ _
  | true =>
      simp only [if_true]
      have hWelcome : Welcome (.did .loadRunning true :: past) s := by
        rintro ⟨hStop, hHeeded⟩
        show SentAway past = false
        cases hAway : SentAway past with
        | false => rfl
        | true =>
            rcases h hHeeded hAway with hSlept | hStopped
            · exact absurd ⟨hAway, hSlept⟩ hStop
            · rw [hRunning] at hStopped
              cases hStopped
      exact Safe.bind ((runOnce_leaves hWelcome).mono fun outcome past s h => afterAttempt_due x h)

/-- In every run, a go-away is told on a connection and as the last
of its status. -/
theorem client_leaves {past : List ConnLabel} {o : Op} {next : Ans o → ConnProg Unit} {init s : World}
    (h : Run clientSystem (run na c) init past (.op o next) s) : leaves o past s :=
  (run_leaves init).ok_of_run h

/-- What the status tells of a go-away. -/
def Known (past : List ConnLabel) (s : World) : Prop :=
  s.status.goAwayReceived = SentAway past

/-- Each operation of the client keeps the account of the last
go-away true. -/
theorem known_exec {o : Op} {past : List ConnLabel} {s s' : World} {r : Ans o} (hO : IsClientOp o)
    (h : Known past s) (hExec : s.exec o r s') : Known (.did o r :: past) s' := by
  by_cases hAssign : ∃ info, o = .assignStatus info
  · obtain ⟨info, rfl⟩ := hAssign
    obtain rfl := hExec
    exact hO.2
  by_cases hUpdate : ∃ u, o = .updateStatus u
  · obtain ⟨u, rfl⟩ := hUpdate
    obtain rfl := hExec
    cases u <;> first
      | exact h
      | rfl
  have hAssign : ∀ info, o ≠ .assignStatus info := fun info hEq => hAssign ⟨info, hEq⟩
  have hUpdate : ∀ u, o ≠ .updateStatus u := fun u hEq => hUpdate ⟨u, hEq⟩
  have hSame : SentAway (.did o r :: past) = SentAway past := by
    cases o with
    | assignStatus info => exact absurd rfl (hAssign info)
    | updateStatus u => exact absurd rfl (hUpdate u)
    | _ => rfl
  show s'.status.goAwayReceived = SentAway (.did o r :: past)
  rw [hSame, exec_status hExec hAssign hUpdate]
  exact h

/-- So the status of a client that has not been sent away before tells just
what was received. -/
theorem client_known {past : List ConnLabel} {p : ConnProg Unit} {init s : World}
    (hInit : init.status.goAwayReceived = false) (h : Run clientSystem (run na c) init past p s) :
    Known past s := by
  have hStable : Stable clientSystem Known := by
    rintro past s a s' h ⟨-, rfl⟩
    show (s.act a).status.goAwayReceived = SentAway past
    rw [act_status]
    exact h
  exact (client_safe init).invariant Known hStable (fun o past s r s' hO hKnown hExec => known_exec hO hKnown hExec)
    hInit h

end NoCapKVM.Discovery
