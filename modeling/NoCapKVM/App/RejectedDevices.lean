import NoCapKVM.App.LiveAttempts

/-! What a rejection ends. A `TcpClient` that was rejected gives up, but the pump sees
only a client that has failed, and starts another one for the same device. -/
namespace NoCapKVM.App

open Discovery Thread

variable {na : Sodium UInt8}

/-- Device `d` has rejected a pairing. -/
def RejectedBy (d : UInt64) (past : List Move) : Prop :=
  ∃ launch l, .did launch l ∈ past ∧ launch.deviceId = d ∧ IsRejection l

/-- The pump comes to no selectable row of a device that has rejected
a pairing, and none rejects one while the pump is about to start a
client for it. -/
def Deterred : Condition na := fun past s m =>
  (m = .row → ∀ peer rows waiting, s.stage = .choosing (peer :: rows) waiting → RejectedBy peer.deviceId past →
    s.Selectable peer = false) ∧
  ∀ launch l, m = .did launch l → IsRejection l → ∀ next, s.stage = .replacing (some next) →
    next.byUser = false → next.deviceId ≠ launch.deviceId

/-- What a rejection has done to the clients of the pump. -/
structure Final (past : List Move) (s : Slave na) : Prop where
  client : ∀ k, s.tcpClient = some k → k.launch.byUser = false → RejectedBy k.launch.deviceId past →
    Rejected k.past
  next : ∀ next, s.stage = .replacing (some next) → next.byUser = false → ¬ RejectedBy next.deviceId past

/-- A rejection is an event of the client that asked for the pairing. -/
theorem rejectedBy_cons {d : UInt64} {m : Move} {past : List Move} (h : RejectedBy d (m :: past)) :
    (∃ launch l, m = .did launch l ∧ launch.deviceId = d ∧ IsRejection l) ∨ RejectedBy d past := by
  obtain ⟨launch, l, hMem, hDevice, hRejection⟩ := h
  rcases List.mem_cons.mp hMem with hEq | hMem
  · exact .inl ⟨launch, l, hEq.symm, hDevice, hRejection⟩
  · exact .inr ⟨launch, l, hMem, hDevice, hRejection⟩

/-- Moves of the other threads reject nobody. -/
theorem rejectedBy_quiet {d : UInt64} {m : Move} {past : List Move} (hMove : ∀ launch l, m ≠ .did launch l)
    (h : RejectedBy d (m :: past)) : RejectedBy d past := by
  rcases rejectedBy_cons h with ⟨launch, l, hEq, -⟩ | hOld
  · exact absurd hEq (hMove launch l)
  · exact hOld

/-- A rejection stays one. -/
theorem rejected_cons {l : ConnLabel} {past : List ConnLabel} (h : Rejected past) : Rejected (l :: past) := by
  obtain ⟨l', hMem, hRejection⟩ := h
  exact ⟨l', List.mem_cons_of_mem l hMem, hRejection⟩

/-- A step that keeps the condition starts no client for a device that has
rejected one. -/
theorem final_step {past : List Move} {s s' : Slave na} {m : Move} (h : Final past s) (hStep : Step s m s')
    (hMeets : Deterred past s m) : Final (m :: past) s' where
  client k' hClient hPump hBy := by
    cases hStep.client hClient with
    | kept hSome hMove hLaunch hPast hStatus =>
        rw [hLaunch] at hPump hBy
        have hOld := h.client _ hSome hPump (rejectedBy_quiet (by rintro launch l rfl; exact hMove) hBy)
        rcases hPast with hSame | ⟨a, hCalled⟩
        · rwa [hSame]
        · rw [hCalled]
          exact rejected_cons hOld
    | did hSome hProg hLaunch hPast hExec =>
        rw [hLaunch] at hPump hBy
        rw [hPast]
        rcases rejectedBy_cons hBy with ⟨launch, l, hEq, -, hRejection⟩ | hOld
        · injection hEq with _ hLabel
          exact ⟨_, List.mem_cons_self, hLabel ▸ hRejection⟩
        · exact rejected_cons (h.client _ hSome hPump hOld)
    | started hStage hLaunch hPast hStatus =>
        rw [hLaunch] at hPump hBy
        exact absurd (rejectedBy_quiet (by intro _ _ hEq; cases hEq) hBy) (h.next _ hStage hPump)
  next next hStage hPump hBy := by
    cases hStep.pending hStage with
    | kept hOld hSuppressed hMove =>
        rcases rejectedBy_cons hBy with ⟨launch, l, rfl, hDevice, hRejection⟩ | hBy
        · exact hMeets.2 launch l rfl hRejection next hOld hPump hDevice.symm
        · exact h.next next hOld hPump hBy
    | selected hChoosing hSelectable hNext =>
        subst hNext
        have hSkipped := hMeets.1 rfl _ _ _ hChoosing (rejectedBy_quiet (by intro _ _ hEq; cases hEq) hBy)
        rw [hSelectable] at hSkipped
        cases hSkipped
    | pressed hNext =>
        subst hNext
        cases hPump

/-- So does a run. -/
theorem run_final {init s : Slave na} {past : List Move} (hInit : init.Initial)
    (hRun : SlaveRun Deterred init past s) : Final past s := by
  refine hRun.invariant Final (fun _ _ _ _ h hStep hMeets => final_step h hStep hMeets) ⟨?_, ?_⟩
  · intro k hClient
    cases hInit.client.symm.trans hClient
  · intro next hStage
    cases hInit.stage.symm.trans hStage

/-- No client begins an attempt once its peer has rejected it, and none that
the pump has started once its device has rejected any, as long as the pump
comes to no selectable row of such a device. -/
theorem rejection_final {init s : Slave na} {past : List Move} {k : Client na} {o : Op}
    {next : Ans o → ConnProg Unit} (hInit : init.Initial) (hRun : SlaveRun Deterred init past s)
    (hClient : s.tcpClient = some k) (hProg : k.prog = .op o next) (hBegins : BeginsAttempt o) :
    ¬ Rejected k.past ∧ (k.launch.byUser = false → ¬ RejectedBy k.launch.deviceId past) := by
  have hOnce : ¬ Rejected k.past := by
    obtain ⟨init', -, hReached⟩ := k.reached
    rw [hProg] at hReached
    exact client_rejected hReached hBegins
  exact ⟨hOnce, fun hPump hBy => hOnce ((run_final hInit hRun).client k hClient hPump hBy)⟩

section Instance

def beginsAttempt : ConnProg Unit → Bool
  | .op (.assignStatus info) _ => info.state = .connecting
  | _ => false

theorem beginsAttempt_op {p : ConnProg Unit} (h : beginsAttempt p = true) :
    ∃ o next, p = .op o next ∧ BeginsAttempt o := by
  cases p with
  | op o next =>
      cases o with
      | assignStatus info => exact ⟨_, next, rfl, info, rfl, of_decide_eq_true h⟩
      | _ => cases h
  | _ => cases h

def usual (n : Nat) : List SlaveCue :=
  List.replicate n (.answer .usual)

/-- The thread of a new client comes to its first attempt. -/
def beginCues : List SlaveCue :=
  [.answer .usual, .enter, .answer .usual]

/-- What the Master of a device sends: its id, that it wants a pairing, its
key, and that it has rejected the pairing. -/
def rejection (d : UInt64) : List UInt8 :=
  (encodeDeviceId d).val ++ 1 :: (plainKeypair 4).publicKey.val ++ [kPairingRejected]

/-- A client that hears a rejection, up to the end of its thread. -/
def rejectedCues : List SlaveCue :=
  beginCues ++ usual 18

def rejects (d : UInt64) : Move → Bool
  | .did launch (.did (.recvAll .decision 1 _) (some b)) => launch.deviceId = d && b.only != kPairingApproved
  | _ => false

theorem rejectedBy_of_rejects {d : UInt64} {past : List Move} (h : past.any (rejects d) = true) :
    RejectedBy d past := by
  obtain ⟨m, hMem, hRejects⟩ := List.any_eq_true.mp h
  unfold rejects at hRejects
  split at hRejects
  case h_1 =>
    obtain ⟨hDevice, hDecision⟩ := Bool.and_eq_true_iff.mp hRejects
    exact ⟨_, _, hMem, of_decide_eq_true hDevice, _, _, rfl, bne_iff_ne.mp hDecision⟩
  case h_2 => cases hRejects

/-- A client is about to begin an attempt to a device that has rejected a
pairing. -/
def callsRejected (past : List Move) (s : Slave na) : Bool :=
  s.tcpClient.any fun k => beginsAttempt k.prog && past.any (rejects k.launch.deviceId)

/-- The test finds a client that is about to begin an attempt to a device that
has rejected it. -/
theorem attempt_of_callsRejected {past : List Move} {s : Slave na} (h : callsRejected past s = true) :
    ∃ k o next, s.tcpClient = some k ∧ k.prog = .op o next ∧ BeginsAttempt o ∧ RejectedBy k.launch.deviceId past := by
  obtain ⟨k, hClient, hCalls⟩ := (Option.any_eq_true ..).mp h
  obtain ⟨hAttempt, hRejects⟩ := Bool.and_eq_true_iff.mp hCalls
  obtain ⟨o, next, hProg, hBegins⟩ := beginsAttempt_op hAttempt
  exact ⟨k, o, next, hClient, hProg, hBegins, rejectedBy_of_rejects hRejects⟩

/-- The look comes to no selectable row, and no client hears while the pump
replaces it. -/
def deters (s : Slave na) : Move → Bool
  | .row =>
      match s.stage with
      | .choosing (peer :: _) _ => !s.Selectable peer
      | _ => true
  | .did .. => !(s.stage matches .replacing _)
  | _ => true

/-- The test for the condition of a move is sound. -/
theorem deterred_of_deters (past : List Move) (s : Slave na) (m : Move) (h : deters s m = true) :
    Deterred past s m := by
  refine ⟨?_, ?_⟩
  · rintro rfl peer rows waiting hStage -
    simp only [deters, hStage, Bool.not_eq_true'] at h
    exact h
  · rintro launch l rfl - next hStage
    simp [deters, hStage] at h

/-- Device 3, which the Slave does not know, is alone in the table, and the
user presses Connect. It rejects the pairing. -/
def strangerCues : List SlaveCue :=
  [.hear [⟨3, .master, "192.168.0.3", 5001⟩], .connect 0, .started 0 (rejection 3)] ++ rejectedCues

/-- The user calls device 3 again, which has rejected a pairing and which the
pump has left alone since. -/
theorem rejection_final_again : ∃ past s k o next,
    SlaveRun Deterred finder past s ∧ s.tcpClient = some k ∧ k.prog = .op o next ∧ BeginsAttempt o ∧
      RejectedBy k.launch.deviceId past ∧
      ¬ Rejected k.past ∧ (k.launch.byUser = false → ¬ RejectedBy k.launch.deviceId past) := by
  obtain ⟨past, s, hRun, hCheck⟩ := SlaveRun.exists_play _ deterred_of_deters finder
    (strangerCues ++ [.pump, .row, .pumped, .pump, .row, .pumped, .connect 0, .started 0 []] ++ beginCues)
    callsRejected (by decide +kernel)
  obtain ⟨k, o, next, hClient, hProg, hBegins, hRejected⟩ := attempt_of_callsRejected hCheck
  exact ⟨past, s, k, o, next, hRun, hClient, hProg, hBegins, hRejected,
    rejection_final ⟨rfl, rfl⟩ hRun hClient hProg hBegins⟩

/-- The pump calls device 2 again after its rejection. -/
theorem rejection_repeated : ∃ past s k o next,
    SlaveRun (fun _ _ _ => True) finder past s ∧ s.tcpClient = some k ∧ k.prog = .op o next ∧ BeginsAttempt o ∧
      k.launch.byUser = false ∧ RejectedBy k.launch.deviceId past := by
  obtain ⟨past, s, hRun, hCheck⟩ := SlaveRun.exists_play (fun _ _ => true) (fun _ _ _ _ => trivial) finder
    ([.pump, .row, .started 0 (rejection 2)] ++ rejectedCues ++ [.pump, .row, .started 0 []] ++ beginCues)
    (fun past s => callsRejected past s && s.tcpClient.all fun k => !k.launch.byUser) (by decide +kernel)
  obtain ⟨hCalls, hPump⟩ := Bool.and_eq_true_iff.mp hCheck
  obtain ⟨k, o, next, hClient, hProg, hBegins, hRejected⟩ := attempt_of_callsRejected hCalls
  have hByPump := (Option.all_eq_true ..).mp hPump k hClient
  rw [Bool.not_eq_true'] at hByPump
  exact ⟨past, s, k, o, next, hRun, hClient, hProg, hBegins, hByPump, hRejected⟩

end Instance

end NoCapKVM.App
