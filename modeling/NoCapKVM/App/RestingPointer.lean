import NoCapKVM.App.EventOrder
import NoCapKVM.App.FacingEdge

/-! The pointer at rest after a handoff. -/
open NoCapKVM.Topology
namespace NoCapKVM.App

open Discovery (ConnectionInfo MonitorInfo)
open Input

/-- Frames without events on a connection whose Slave, screens and
arrangement stay. -/
inductive Rest (status : ConnectionInfo) (entry : Option ArrangementEntry) (start : AppState) : AppState → Prop where
  | zero : Rest status entry start start
  | succ {state : AppState} {f : Frame} (prior : Rest status entry start state) (hEvents : f.events = [])
      (hLive : Live state f) (hDevice : f.env.status.peerDeviceId = status.peerDeviceId)
      (hMonitors : f.env.status.peerMonitors = status.peerMonitors)
      (hEntry : state.screenArrangement status.peerDeviceId = entry) :
      Rest status entry start (state.frame f)

/-- No click moves the pointer or the screens, or forgets that the input was
just handed off. -/
theorem draw_pointer (state : AppState) (a : UiAction) :
    (draw state a).position = state.position ∧ (draw state a).inputJustHandedOff = state.inputJustHandedOff ∧
      (draw state a).localMonitors = state.localMonitors := by
  cases a with
  | other => exact ⟨rfl, rfl, rfl⟩
  | _ =>
      unfold draw
      simp only
      split <;> exact ⟨rfl, rfl, rfl⟩

/-- The pump leaves the screens of the Master alone. -/
theorem Outcome.localMonitors {state : AppState} {info : ConnectionInfo} {mask : UInt8} {r : AppState × List Effect}
    (h : Outcome state info mask r) : r.1.localMonitors = state.localMonitors := by
  cases h <;> rfl

/-- The local screens stay as they were found at the start. -/
theorem frame_localMonitors (state : AppState) (f : Frame) : (state.frame f).localMonitors = state.localMonitors := by
  have hDraw : (state.frame f).localMonitors = (state.pumped f).localMonitors := (draw_pointer _ f.action).2.2
  rw [hDraw, AppState.pumped]
  by_cases hLive : Live state f
  · rw [(pumpInput_outcome hLive).localMonitors, ready_localMonitors]
  · rw [pumpInput_idle hLive]
    simp only
    split <;> rfl

/-- Without events the pump is called in the state that the last
frame has left. -/
theorem before_rest {state : AppState} {f : Frame} (hEvents : f.events = []) : state.before f = state := by
  rw [AppState.before, hEvents]
  rfl

/-- Nothing is pending, so that the poll changes nothing. -/
theorem pollFrame_rest {state : AppState} (hPending : state.inputHook.pending = {}) : pollFrame state = ({}, state) := by
  have hHook : state.inputHook.poll = ({}, state.inputHook) := by
    refine Prod.ext hPending ?_
    show { state.inputHook with pending := {} } = state.inputHook
    rw [← hPending]
  rw [pollFrame, hHook]
  rfl

/-- If the Master keeps the input, nothing is crossed: the pointer is inside,
or has no neighbour on that side. -/
theorem handleMasterOwned_kept {state : AppState} {info : ConnectionInfo} {mask : UInt8} {frame : InputFrame}
    (h : (handleMasterOwned state info mask frame).1.inputOwnedByMaster = true) :
    let bc := checkBoundary (computeBounds state.localMonitors) (state.reached frame).x (state.reached frame).y
    (handleMasterOwned state info mask frame).1 = state.moved ⟨bc.clampedX, bc.clampedY⟩ := by
  intro bc
  unfold handleMasterOwned at h ⊢
  simp only at h ⊢
  split at h
  case h_1 => cases h
  case h_2 => rfl

/-- If the Slave keeps the input, the frame changes nothing but the position
of the pointer. -/
theorem handleSlaveOwned_moved {state : AppState} {info : ConnectionInfo} {frame : InputFrame}
    (h : (handleSlaveOwned state info frame).1.inputOwnedByMaster = false) :
    (handleSlaveOwned state info frame).1 = state.moved (handleSlaveOwned state info frame).1.position := by
  unfold handleSlaveOwned at h ⊢
  simp only at h ⊢
  split
  case h_1 => rfl
  case h_2 inv hEdge =>
    split
    case h_1 => rfl
    case h_2 hSome =>
      rw [hEdge] at h
      simp only [hSome] at h
      cases h

/-- At rest the pointer reaches the position that it has. -/
theorem reached_rest (state : AppState) : state.reached {} = state.position := by
  simp [AppState.reached, AppState.position]

/-- A frame of a Slave with screens takes all events off the hook. -/
theorem Outcome.pending {state : AppState} {info : ConnectionInfo} {mask : UInt8} {r : AppState × List Effect}
    (h : Outcome state info mask r) (hMonitors : info.peerMonitors ≠ []) : r.1.inputHook.pending = {} := by
  cases h with
  | displaysLost _ hNone => exact absurd hNone hMonitors
  | _ => rfl

section Steps

variable {state : AppState} {f : Frame} {d : Direction}

/-- At rest the pump starts from the state that the last frame has left. -/
theorem pumped_rest (hActive : state.inputHookActive = true) (hEvents : f.events = []) (hLive : Live state f) :
    state.pumped f = (pumpConnected state f.env.status f.env.currentModifierMask).1 := by
  rw [AppState.pumped, pumpInput_live hLive, AppState.ready, if_pos hActive, before_rest hEvents]

/-- Master has the input, and the pointer is not at the edge `d`. -/
structure RestsOnMaster (d : Direction) (state : AppState) : Prop where
  owned : state.inputOwnedByMaster = true
  active : state.inputHookActive = true
  pending : state.inputHook.pending = {}
  inside : (computeBounds state.localMonitors).past d state.position < 0

/-- The Slave has the input, and the pointer is not past the edge `d`. On the
other sides it may still be past the screens right after the handoff. -/
structure RestsOnSlave (s : ClusterBounds) (d : Direction) (state : AppState) : Prop where
  owned : state.inputOwnedByMaster = false
  active : state.inputHookActive = true
  pending : state.inputHook.pending = {}
  escape : escapeComboHeld state.inputHeldKeys = false
  facing : s.past d state.position ≤ 0
  inside : state.inputJustHandedOff = true ∨ s.Contains state.position

/-- What is drawn does not move a pointer at rest. -/
theorem RestsOnMaster.draw (h : RestsOnMaster d state) (a : UiAction) : RestsOnMaster d (draw state a) := by
  obtain ⟨hPosition, -, hMonitors⟩ := draw_pointer state a
  obtain ⟨hHook, hOwned⟩ := draw_owned state a
  refine ⟨hOwned.trans h.owned, (draw_hook state a).2.trans h.active,
    (congrArg InputHook.pending hHook).trans h.pending, ?_⟩
  rw [hMonitors, hPosition]
  exact h.inside

/-- This holds on the Slave as well. -/
theorem RestsOnSlave.draw {s : ClusterBounds} (h : RestsOnSlave s d state) (a : UiAction) :
    RestsOnSlave s d (draw state a) := by
  obtain ⟨hPosition, hJust, -⟩ := draw_pointer state a
  obtain ⟨hHook, hOwned⟩ := draw_owned state a
  obtain ⟨hHeld, hActive⟩ := draw_hook state a
  refine ⟨hOwned.trans h.owned, hActive.trans h.active, (congrArg InputHook.pending hHook).trans h.pending,
    (congrArg escapeComboHeld hHeld).trans h.escape, ?_, ?_⟩
  · rw [hPosition]
    exact h.facing
  · rw [hPosition, hJust]
    exact h.inside

/-- A frame without events leaves the pointer where it rests, and the input
with the Master. -/
theorem RestsOnMaster.frame (h : RestsOnMaster d state) (hEvents : f.events = []) (hLive : Live state f)
    (hWide : (computeBounds state.localMonitors).Wide)
    (hEntry : ∀ entry ∈ state.screenArrangement f.env.status.peerDeviceId, entry.direction = d) :
    RestsOnMaster d (state.frame f) := by
  have hPumped := pumped_rest h.active hEvents hLive
  have hPoll : pollFrame state = ({}, state) := pollFrame_rest h.pending
  rw [pumpConnected_master _ _ h.owned, hPoll] at hPumped
  have hKept : (handleMasterOwned state f.env.status f.env.currentModifierMask {}).1.inputOwnedByMaster = true := by
    by_contra hNot
    obtain ⟨-, -, entry, hSome, hReports⟩ := (handleMasterOwned_hands_iff h.owned).mp (Bool.eq_false_iff.mpr hNot)
    rw [reached_rest, hEntry entry hSome] at hReports
    exact absurd (past_of_reports hReports) (not_le.mpr h.inside)
  rw [handleMasterOwned_kept hKept, reached_rest] at hPumped
  refine RestsOnMaster.draw ?_ f.action
  rw [hPumped]
  exact ⟨h.owned, h.active, h.pending, past_clamped_neg hWide h.inside⟩

/-- The same holds while the Slave has the input, as long as the pointer is
not past the edge that faces the Master. -/
theorem RestsOnSlave.frame {s : ClusterBounds} (h : RestsOnSlave s d state) (hEvents : f.events = [])
    (hLive : Live state f) (hMaster : state.localMonitors ≠ []) (hS : computeBounds f.env.status.peerMonitors = s)
    (hProper : s.Proper)
    (hEntry : ∀ entry ∈ state.screenArrangement f.env.status.peerDeviceId, opposite entry.direction = d) :
    RestsOnSlave s d (state.frame f) := by
  have hPumped := pumped_rest h.active hEvents hLive
  subst hS
  have hPoll : pollFrame state = ({}, state) := pollFrame_rest h.pending
  have hEscape : escapeComboHeld (pollFrame state).2.inputHeldKeys = false := by rw [hPoll]; exact h.escape
  rw [pumpConnected_slave _ h.owned (proper_ne_nil hProper) hEscape, hPoll] at hPumped
  have hKept : (handleSlaveOwned state f.env.status {}).1.inputOwnedByMaster = false := by
    by_contra hNot
    obtain ⟨hJust, -, -, -, e, hPast⟩ :=
      (handleSlaveOwned_returns_iff h.owned hProper hMaster).mp (Bool.not_eq_false _ ▸ hNot)
    rw [reached_rest] at hPast
    rcases h.inside with hTrue | hInside
    · exact Bool.noConfusion (hJust.symm.trans hTrue)
    · exact absurd (contains_iff_past.mp hInside e) (not_le.mpr (lt_of_lt_of_le (by decide) hPast))
  have hInside : (computeBounds f.env.status.peerMonitors).Contains
      (handleSlaveOwned state f.env.status {}).1.position := by
    rcases handleSlaveOwned_kept hKept with hClamped | ⟨⟨entry, hSome, hCrossed, hDirection⟩, hPosition⟩
    · rw [hClamped]
      exact contains_clamped hProper _ _
    · rw [hPosition, contains_iff_past]
      intro e
      rcases past_kept hProper (state.reached {}) hCrossed e with hPast | ⟨hEdge, hPast⟩
      · exact hPast
      · rw [reached_rest] at hPast hDirection hEdge ⊢
        rw [hPast, hEdge, hDirection, hEntry entry hSome]
        exact h.facing
  rw [handleSlaveOwned_moved hKept] at hPumped
  refine RestsOnSlave.draw ?_ f.action
  rw [hPumped]
  exact ⟨h.owned, h.active, h.pending, h.escape, contains_iff_past.mp hInside d, .inr hInside⟩

end Steps

section Handoffs

variable {state : AppState} {info : ConnectionInfo} {mask : UInt8} {frame : InputFrame}

/-- A handoff to the Slave lands inside the edge that the pointer
comes in over. -/
theorem handleMasterOwned_lands (hOwned : state.inputOwnedByMaster = true)
    (hMaster : (computeBounds state.localMonitors).Proper)
    (h : (handleMasterOwned state info mask frame).1.inputOwnedByMaster = false) :
    ∃ entry, state.screenArrangement info.peerDeviceId = some entry ∧
      (computeBounds info.peerMonitors).past (opposite entry.direction)
        (handleMasterOwned state info mask frame).1.position ≤ 0 := by
  obtain ⟨entry, hEntry, hCrossed, hDirection, hTarget, hPoint⟩ :=
    outboundCrossing_eq_some (handleMasterOwned_handoff hOwned h)
  obtain ⟨hAlong, -⟩ := crossing_axes hMaster (state.reached frame).x (state.reached frame).y hCrossed hTarget entry.offset
  have hReports : Reports (computeBounds state.localMonitors) (state.reached frame) entry.direction :=
    ⟨hCrossed, hDirection.symm⟩
  refine ⟨entry, hEntry, ?_⟩
  rw [show (handleMasterOwned state info mask frame).1.position = _ from hPoint, hDirection]
  have hPast := past_of_entry hAlong
  rw [hDirection] at hReports
  exact hPast.trans_le (Int.neg_nonpos_of_nonneg (past_of_reports hReports))

/-- It notes that the input was just handed off. -/
theorem handleMasterOwned_just (h : (handleMasterOwned state info mask frame).1.inputOwnedByMaster = false)
    (hOwned : state.inputOwnedByMaster = true) :
    (handleMasterOwned state info mask frame).1.inputJustHandedOff = true := by
  unfold handleMasterOwned at h ⊢
  simp only at h ⊢
  split at h
  case h_1 => rfl
  case h_2 => exact absurd (hOwned.symm.trans h) Bool.noConfusion

/-- A handoff to the Master lands on the edge that the pointer has
come in over. -/
theorem handleSlaveOwned_lands (hOwned : state.inputOwnedByMaster = false)
    (hSlave : (computeBounds info.peerMonitors).Proper)
    (h : (handleSlaveOwned state info frame).1.inputOwnedByMaster = true) :
    ∃ entry, state.screenArrangement info.peerDeviceId = some entry ∧
      (computeBounds state.localMonitors).past entry.direction (handleSlaveOwned state info frame).1.position =
        - (computeBounds info.peerMonitors).past (opposite entry.direction) (state.reached frame) := by
  obtain ⟨inv, hInv, hReturn⟩ := handleSlaveOwned_handoff hOwned h
  obtain ⟨entry, hEntry, hCrossed, hDirection, hInverse⟩ := crossableEdge_eq_some hInv
  obtain ⟨hTarget, hPoint⟩ := returnCrossing_eq_some hReturn
  have hSide : inv.direction = opposite entry.direction := congrArg (·.direction) hInverse
  obtain ⟨hAlong, -⟩ := crossing_axes hSlave (state.inputLogicalX + frame.dx) (state.inputLogicalY + frame.dy)
    hCrossed hTarget inv.offset
  rw [hSide, ← hDirection] at hPoint
  rw [← hPoint, hDirection] at hAlong
  have hPast := past_of_entry hAlong
  rw [opposite_opposite] at hPast
  exact ⟨entry, hEntry, hPast⟩

end Handoffs

/-- In a frame that gives the input back, the pointer is past the edge that
faces Master. -/
def Pushed (state : AppState) (g : Frame) : Prop :=
  ∀ entry ∈ state.screenArrangement g.env.status.peerDeviceId,
    0 < (computeBounds g.env.status.peerMonitors).past (opposite entry.direction)
      ((pollFrame (state.ready g)).2.reached (pollFrame (state.ready g)).1)

instance (state : AppState) (g : Frame) : Decidable (Pushed state g) :=
  inferInstanceAs (Decidable (∀ entry ∈ state.screenArrangement g.env.status.peerDeviceId, _))

section Runs

variable {state : AppState} {g : Frame}

/-- So no event is left over for the frames after it. -/
theorem frame_pending (hLive : Live state g) (hMonitors : g.env.status.peerMonitors ≠ []) :
    (state.frame g).inputHook.pending = {} := by
  rw [show (state.frame g).inputHook = (state.pumped g).inputHook from (draw_owned _ g.action).1]
  exact (pumpInput_outcome hLive).pending hMonitors

/-- After a handoff to the Slave the pointer rests there. -/
theorem Sound.rests_on_slave (h : Sound state) (hLive : Live state g)
    (hMaster : (computeBounds state.localMonitors).Proper) (hMonitors : g.env.status.peerMonitors ≠ [])
    (hBefore : state.inputOwnedByMaster = true) (hAfter : (state.frame g).inputOwnedByMaster = false)
    (hEscape : escapeComboHeld (state.frame g).inputHeldKeys = false) :
    ∃ entry, state.screenArrangement g.env.status.peerDeviceId = some entry ∧
      RestsOnSlave (computeBounds g.env.status.peerMonitors) (opposite entry.direction) (state.frame g) := by
  have hOwned : (pollFrame (state.ready g)).2.inputOwnedByMaster = true := (h.ready_owned g).trans hBefore
  have hProper : (computeBounds (pollFrame (state.ready g)).2.localMonitors).Proper := by
    rw [show (pollFrame (state.ready g)).2.localMonitors = state.localMonitors from ready_localMonitors state g]
    exact hMaster
  have hPumped : state.pumped g = (handleMasterOwned (pollFrame (state.ready g)).2 g.env.status
      g.env.currentModifierMask (pollFrame (state.ready g)).1).1 := by
    rw [AppState.pumped, pumpInput_live hLive, pumpConnected_master _ _ ((h.ready_owned g).trans hBefore)]
  obtain ⟨hPosition, hJust, -⟩ := draw_pointer (state.pumped g) g.action
  have hActive := (h.frame_active g).mpr hLive
  have hPending := frame_pending hLive hMonitors
  have hGone : (handleMasterOwned (pollFrame (state.ready g)).2 g.env.status g.env.currentModifierMask
      (pollFrame (state.ready g)).1).1.inputOwnedByMaster = false := by
    rw [← hPumped]
    exact (draw_owned _ g.action).2.symm.trans hAfter
  obtain ⟨entry, hEntry, hPast⟩ := handleMasterOwned_lands hOwned hProper hGone
  refine ⟨entry, (congrFun (ready_arrangement state g) _).symm.trans hEntry, hAfter, hActive, hPending, hEscape, ?_, .inl ?_⟩
  · show (computeBounds g.env.status.peerMonitors).past _ (draw (state.pumped g) g.action).position ≤ 0
    rw [hPosition, hPumped]
    exact hPast
  · show (draw (state.pumped g) g.action).inputJustHandedOff = true
    rw [hJust, hPumped]
    exact handleMasterOwned_just hGone hOwned

/-- After a return that was pushed the pointer rests on Master. -/
theorem Sound.rests_on_master (h : Sound state) (hLive : Live state g)
    (hSlave : (computeBounds g.env.status.peerMonitors).Proper)
    (hBefore : state.inputOwnedByMaster = false) (hAfter : (state.frame g).inputOwnedByMaster = true)
    (hEscape : escapeComboHeld (state.frame g).inputHeldKeys = false) (hPushed : Pushed state g) :
    ∃ entry, state.screenArrangement g.env.status.peerDeviceId = some entry ∧
      RestsOnMaster entry.direction (state.frame g) := by
  have hOwned : (pollFrame (state.ready g)).2.inputOwnedByMaster = false := (h.ready_owned g).trans hBefore
  have hMonitors := proper_ne_nil hSlave
  obtain ⟨hPosition, -, hLocal⟩ := draw_pointer (state.pumped g) g.action
  have hActive := (h.frame_active g).mpr hLive
  have hPending := frame_pending hLive hMonitors
  have hHeld : (state.frame g).inputHeldKeys = (pollFrame (state.ready g)).2.inputHeldKeys := by
    rw [frame_heldKeys]
    exact (pumpInput_outcome hLive).heldKeys (.inr hMonitors)
  have hPumped : state.pumped g = (handleSlaveOwned (pollFrame (state.ready g)).2 g.env.status
      (pollFrame (state.ready g)).1).1 := by
    rw [AppState.pumped, pumpInput_live hLive, pumpConnected_slave _ ((h.ready_owned g).trans hBefore) hMonitors
      (hHeld ▸ hEscape)]
  have hBack : (handleSlaveOwned (pollFrame (state.ready g)).2 g.env.status
      (pollFrame (state.ready g)).1).1.inputOwnedByMaster = true := by
    rw [← hPumped]
    exact (draw_owned _ g.action).2.symm.trans hAfter
  obtain ⟨entry, hEntry, hPast⟩ := handleSlaveOwned_lands hOwned hSlave hBack
  have hArranged : state.screenArrangement g.env.status.peerDeviceId = some entry :=
    (congrFun (ready_arrangement state g) _).symm.trans hEntry
  refine ⟨entry, hArranged, hAfter, hActive, hPending, ?_⟩
  rw [frame_localMonitors, ← ready_localMonitors state g]
  show (computeBounds (pollFrame (state.ready g)).2.localMonitors).past entry.direction
    (draw (state.pumped g) g.action).position < 0
  rw [hPosition, hPumped, hPast]
  exact Int.neg_neg_of_pos (hPushed entry hArranged)

end Runs

/-- A pointer that rests on the Master rests there through any number of
frames without events. -/
theorem Rest.on_master {status : ConnectionInfo} {entry : ArrangementEntry} {start finish : AppState}
    (h : Rest status (some entry) start finish) (hStart : RestsOnMaster entry.direction start)
    (hWide : (computeBounds start.localMonitors).Wide) :
    RestsOnMaster entry.direction finish ∧ finish.localMonitors = start.localMonitors := by
  induction h with
  | zero => exact ⟨hStart, rfl⟩
  | @succ state f prior hEvents hLive hDevice hMonitors hEntry ih =>
      obtain ⟨hRests, hLocal⟩ := ih
      refine ⟨hRests.frame hEvents hLive (hLocal ▸ hWide) ?_, (frame_localMonitors state f).trans hLocal⟩
      rw [hDevice, hEntry]
      intro other hMem
      cases Option.mem_some.mp hMem
      rfl

/-- So does one that rests on the Slave. -/
theorem Rest.on_slave {status : ConnectionInfo} {entry : ArrangementEntry} {start finish : AppState}
    (h : Rest status (some entry) start finish)
    (hStart : RestsOnSlave (computeBounds status.peerMonitors) (opposite entry.direction) start)
    (hMaster : start.localMonitors ≠ []) (hSlave : (computeBounds status.peerMonitors).Proper) :
    RestsOnSlave (computeBounds status.peerMonitors) (opposite entry.direction) finish ∧
      finish.localMonitors = start.localMonitors := by
  induction h with
  | zero => exact ⟨hStart, rfl⟩
  | @succ state f prior hEvents hLive hDevice hMonitors hEntry ih =>
      obtain ⟨hRests, hLocal⟩ := ih
      refine ⟨hRests.frame hEvents hLive (hLocal ▸ hMaster) (congrArg computeBounds hMonitors) hSlave ?_,
        (frame_localMonitors state f).trans hLocal⟩
      rw [hDevice, hEntry]
      intro other hMem
      cases Option.mem_some.mp hMem
      rfl

/-- After a crossing of the seam in any run, the input stays where it went for
as long as the pointer rests, unless the escape hotkey was held. A return must
have been pushed past the edge that faces Master. -/
theorem ownership_rests (localMonitors : List MonitorInfo) (arrangement : UInt64 → Option ArrangementEntry)
    (lastRole : Option Role) (frames : List Frame) (g : Frame) (finish : AppState) :
    let state := frames.foldl AppState.frame (.start localMonitors arrangement lastRole)
    let after := state.frame g
    Live state g → (computeBounds state.localMonitors).Wide → (computeBounds g.env.status.peerMonitors).Proper →
      after.inputOwnedByMaster ≠ state.inputOwnedByMaster → escapeComboHeld after.inputHeldKeys = false →
      (state.inputOwnedByMaster = false → Pushed state g) →
      Rest g.env.status (state.screenArrangement g.env.status.peerDeviceId) after finish →
      finish.inputOwnedByMaster = after.inputOwnedByMaster := by
  intro state after hLive hMaster hSlave hChange hEscape hPushed hRest
  have hSound : Sound state := sound_run localMonitors arrangement lastRole frames
  have hLocal : after.localMonitors = state.localMonitors := frame_localMonitors state g
  cases hBefore : state.inputOwnedByMaster with
  | true =>
      have hAfter : after.inputOwnedByMaster = false := by
        rw [hBefore] at hChange
        exact Bool.eq_false_iff.mpr hChange
      obtain ⟨entry, hEntry, hStart⟩ :=
        hSound.rests_on_slave hLive hMaster.proper (proper_ne_nil hSlave) hBefore hAfter hEscape
      rw [hEntry] at hRest
      have hRests := (hRest.on_slave hStart (hLocal ▸ proper_ne_nil hMaster.proper) hSlave).1
      exact hRests.owned.trans hAfter.symm
  | false =>
      have hAfter : after.inputOwnedByMaster = true := by
        rw [hBefore] at hChange
        exact Bool.not_eq_false _ ▸ hChange
      obtain ⟨entry, hEntry, hStart⟩ :=
        hSound.rests_on_master hLive hSlave hBefore hAfter hEscape (hPushed hBefore)
      rw [hEntry] at hRest
      have hRests := (hRest.on_master hStart (hLocal ▸ hMaster)).1
      exact hRests.owned.trans hAfter.symm

open SideBySide

/-- After the pointer has gone over, the input stays on the Slave while the
mouse rests. -/
theorem ownership_rests_swipeOut :
    let state := [during []].foldl AppState.frame (.start [screen] (fun _ => some ⟨7, .right, 0⟩) (some .master))
    (((state.frame swipeOut).frame (during [])).frame (during [])).inputOwnedByMaster =
      (state.frame swipeOut).inputOwnedByMaster :=
  ownership_rests [screen] (fun _ => some ⟨7, .right, 0⟩) (some .master) [during []] swipeOut _
    (by decide +kernel) (by decide +kernel) (by decide +kernel) (by decide +kernel) (by decide +kernel)
    (by decide +kernel) (.succ (.succ .zero rfl (by decide +kernel) rfl rfl rfl) rfl (by decide +kernel) rfl rfl rfl)

/-- The pointer crosses while Ctrl, Alt, Shift and Escape are down. -/
def hotkeySwipe : Frame :=
  during [.keyboard true { vkCode := vkLControl, scanCode := 29 }, .keyboard true { vkCode := vkLMenu, scanCode := 56 },
    .keyboard true { vkCode := vkLShift, scanCode := 42 }, .keyboard true { vkCode := vkEscape, scanCode := 1 },
    .mouse .mouseMove { x := 1930, y := 540 }]

/-- The next frame, at rest, takes the input back. -/
theorem hotkey_takes_back :
    let state := [during []].foldl AppState.frame (.start [screen] (fun _ => some ⟨7, .right, 0⟩) (some .master))
    state.inputOwnedByMaster = true ∧ (state.frame hotkeySwipe).inputOwnedByMaster = false ∧
      ((state.frame hotkeySwipe).frame (during [])).inputOwnedByMaster = true := by
  decide +kernel

end NoCapKVM.App
