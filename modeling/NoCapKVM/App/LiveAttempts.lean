import NoCapKVM.App.AutoConnect
import NoCapKVM.Discovery.PlainSodium

/-! Whom the auto-connect pump replaces. It takes a published `Idle` or `Failed` for
the end of a client, and a client is alive in both before its first attempt and
between two. -/
namespace NoCapKVM.App

open Discovery Thread

variable {na : Sodium UInt8}

/-- The pump selects no row in a call whose look has met a waiting client. -/
def Undisturbed : Condition na := fun _ s m =>
  m = .row → ∀ peer rows, s.stage = .choosing (peer :: rows) true → s.Selectable peer = false

/-- The moves of the pump. -/
def IsPump : Move → Prop
  | .pump | .row | .pumped => True
  | _ => False

/-- While the pump looks at its rows, the client has ended, unless the look
has met it waiting. -/
def Vacant (s : Slave na) : Prop :=
  ∀ rows, s.stage = .choosing rows false → ∀ k, s.tcpClient = some k → k.prog.ended = true

/-- Outside of the loop over the rows nothing is claimed. -/
theorem vacant_of_stage {s : Slave na} (h : ∀ rows waiting, s.stage ≠ .choosing rows waiting) : Vacant s :=
  fun rows hStage => absurd hStage (h rows false)

/-- A client that is neither busy nor waiting has ended. -/
theorem ended_of_idle {k : Client na} (hBusy : Slave.Busy k.world.status = false) (hWaiting : k.Waiting = false) :
    k.prog.ended = true := by
  have hGap : Gap k.past = true := by
    apply k.telling.mpr
    unfold Slave.Busy at hBusy
    cases hState : k.world.status.state <;> simp_all
  unfold Client.Waiting at hWaiting
  rw [hGap] at hWaiting
  simpa using hWaiting

/-- When the loop over the rows begins, the client has ended, or the look
before it has met the client waiting. -/
theorem vacant_pump {s : Slave na} (hStage : s.stage = .free) : Vacant s.pumpAutoConnect := by
  have hFree : ∀ {s' : Slave na}, s'.stage = s.stage → Vacant s' := fun h =>
    vacant_of_stage fun rows waiting hEq => by rw [h, hStage] at hEq; cases hEq
  generalize hPumped : s.pumpAutoConnect = s'
  have hOutcome := pumpAutoConnect_outcome s
  rw [hPumped] at hOutcome
  cases hOutcome with
  | off => exact hFree rfl
  | alone hClient rows =>
      intro _ _ k hSome
      rw [Slave.tcpClient_choose, hClient] at hSome
      cases hSome
  | busy => exact hFree (Slave.stage_bookkeep ..)
  | idle hClient hBusy rows =>
      rename_i k
      rcases Slave.stage_choose (s.bookkeep k.world.status) rows k.Waiting with hChoosing | hSame
      · intro rows' hStage' k' hSome
        rw [Slave.tcpClient_choose, Slave.tcpClient_bookkeep, hClient] at hSome
        obtain rfl := Option.some.inj hSome
        rw [hChoosing] at hStage'
        injection hStage' with _ hWaiting
        exact ended_of_idle hBusy hWaiting
      · exact hFree (hSame.trans (Slave.stage_bookkeep ..))

/-- Every step keeps it so, since a client that has ended does not
begin again. -/
theorem vacant_step {s s' : Slave na} {m : Move} (h : Vacant s) (hStep : Step s m s') : Vacant s' := by
  cases hStep with
  | did hClient hProg hExec =>
      intro rows hStage k hSome
      have hEnded := h rows hStage _ hClient
      rw [hProg] at hEnded
      cases hEnded
  | enter hClient hProg =>
      intro rows hStage k hSome
      have hEnded := h rows hStage _ hClient
      rw [hProg] at hEnded
      cases hEnded
  | pump hStage => exact vacant_pump hStage
  | @row peer rows waiting hStage =>
      unfold Slave.consider
      split
      · exact vacant_of_stage nofun
      · intro rows' hRows k hSome
        injection hRows with _ hWaiting
        rw [hWaiting] at hStage
        exact h _ hStage k hSome
  | hear => exact h
  | started clock incoming hStage hEnded => exact vacant_of_stage nofun
  | cleared hStage hEnded => exact vacant_of_stage nofun
  | pumped | drawn => exact vacant_of_stage nofun
  | connect | draw | disconnect | forget | back => exact vacant_of_stage nofun
  | forgetLook hStage =>
      apply vacant_of_stage
      unfold Slave.forgetLook
      split
      · exact nofun
      · split <;> exact nofun
      · split <;> exact nofun
  | chooseRole hStage | settings hStage | takeClipboard hStage =>
      exact vacant_of_stage fun rows waiting hEq => nomatch hStage.symm.trans hEq

/-- So it is in every run. -/
theorem run_vacant {meets : Condition na} {init s : Slave na} {past : List Move} (hInit : init.Initial)
    (h : SlaveRun meets init past s) : Vacant s :=
  h.invariant (fun _ => Vacant) (fun _ _ _ _ hVacant hStep _ => vacant_step hVacant hStep)
    (vacant_of_stage fun _ _ hStage => nomatch hInit.stage.symm.trans hStage)

/-- The pump replaces a client only when its thread has ended, as long as it
selects no row in a call whose look has met the client waiting. -/
theorem pump_replaces_ended {init s s' : Slave na} {past : List Move} {m : Move} {next : Option Launch}
    (hInit : init.Initial) (hRun : SlaveRun Undisturbed init past s) (hPump : IsPump m) (hStep : Step s m s')
    (hMeets : Undisturbed past s m) (hReplaces : s'.stage = .replacing next) :
    ∀ k, s.tcpClient = some k → k.prog.ended = true := by
  have hVacant := run_vacant hInit hRun
  cases hStep with
  | pump hStage => exact absurd hReplaces (pump_stage hStage _)
  | @row peer rows waiting hStage =>
      cases waiting with
      | false => exact hVacant _ hStage
      | true =>
          have hSkipped := hMeets rfl peer rows hStage
          simp only [Slave.consider, hSkipped, Bool.false_eq_true, if_false] at hReplaces
          cases hReplaces
  | pumped => cases hReplaces
  | _ => exact hPump.elim

section Instance

/-- A Slave that trusts device 2, and has heard of it and of device 3. -/
def finder : Slave plainSodium where
  deviceId := 1
  ownStatic := plainKeypair 1
  listener := some [⟨2, .master, "192.168.0.2", 5001⟩, ⟨3, .master, "192.168.0.3", 5001⟩]
  knownPeers := ⟨fun d => if d = 2 then some (Bytes.fill 32 2) else none, fun _ => none⟩

/-- The next row of a look that has met `waiting` is selectable. -/
def selects (s : Slave na) (waiting : Bool) : Bool :=
  match s.stage with
  | .choosing (peer :: _) met => s.Selectable peer && met == waiting
  | _ => false

/-- The test finds a row for which the pump starts a client. -/
theorem row_of_selects {s : Slave na} {waiting : Bool} (h : selects s waiting = true) : ∃ peer rows,
    s.stage = .choosing (peer :: rows) waiting ∧
      (s.consider peer rows waiting).stage = .replacing (some (s.launch peer false)) := by
  unfold selects at h
  split at h
  case h_1 peer rows met hStage =>
    obtain ⟨hSelectable, hMet⟩ := Bool.and_eq_true_iff.mp h
    obtain rfl := beq_iff_eq.mp hMet
    refine ⟨peer, rows, hStage, ?_⟩
    rw [Slave.consider, if_pos hSelectable]
    rfl
  case h_2 => cases h

/-- The next frame discards the user's client before its thread has done
anything. -/
theorem pump_discards_waiting : ∃ past s s' k next,
    SlaveRun (fun _ _ _ => True) finder past s ∧ Step s .row s' ∧ s'.stage = .replacing next ∧
      s.tcpClient = some k ∧ k.launch.byUser = true ∧ k.prog.ended = false := by
  obtain ⟨past, s, hRun, hCheck⟩ := SlaveRun.exists_play (fun _ _ => true) (fun _ _ _ _ => trivial) finder
    [.connect 1, .started 0 [], .pump]
    (fun _ s => selects s true && s.tcpClient.any fun k => k.launch.byUser && !k.prog.ended) (by decide +kernel)
  obtain ⟨hSelects, hAlive⟩ := Bool.and_eq_true_iff.mp hCheck
  obtain ⟨k, hClient, hUser⟩ := (Option.any_eq_true ..).mp hAlive
  obtain ⟨hByUser, hEnded⟩ := Bool.and_eq_true_iff.mp hUser
  obtain ⟨peer, rows, hStage, hNext⟩ := row_of_selects hSelects
  rw [Bool.not_eq_true'] at hEnded
  exact ⟨past, s, _, k, _, hRun, .row hStage, hNext, hClient, hByUser, hEnded⟩

/-- The user presses Connect for device 3, no socket can be created and the
retries run out of time, so that the thread ends. Then the pump looks. -/
def giveUpCues : List SlaveCue :=
  [.connect 1, .started 0 [], .answer .usual, .enter, .answer .usual, .answer .usual, .answer .fails,
    .answer .usual, .answer .usual, .answer (.time (seconds 11)), .pump]

/-- A client that has failed for good is replaced by one for a
listed device. -/
theorem pump_replaces_ended_failed : ∃ past s s' k next,
    SlaveRun Undisturbed finder past s ∧ Step s .row s' ∧ s'.stage = .replacing next ∧
      s.tcpClient = some k ∧ k.prog.ended = true := by
  have hFits : ∀ past (s : Slave plainSodium) m, (!(m matches .row)) = true → Undisturbed past s m := by
    rintro _ _ _ hOther rfl
    cases hOther
  obtain ⟨past, s, hRun, hCheck⟩ := SlaveRun.exists_play _ hFits finder giveUpCues
    (fun _ s => s.tcpClient.isSome && selects s false) (by decide +kernel)
  obtain ⟨hSome, hSelects⟩ := Bool.and_eq_true_iff.mp hCheck
  obtain ⟨k, hClient⟩ := Option.isSome_iff_exists.mp hSome
  obtain ⟨peer, rows, hStage, hNext⟩ := row_of_selects hSelects
  have hMeets : Undisturbed past s .row := by
    intro _ _ _ hWaiting
    cases hStage.symm.trans hWaiting
  exact ⟨past, s, _, k, _, hRun, .row hStage, hNext, hClient,
    pump_replaces_ended (m := .row) ⟨rfl, rfl⟩ hRun trivial (.row hStage) hMeets hNext k hClient⟩

end Instance

end NoCapKVM.App
