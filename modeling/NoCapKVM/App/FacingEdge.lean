import NoCapKVM.App.PointerContinuity
import NoCapKVM.Topology.Edges

/-! The edges through which the pointer changes machines: when each of the two handlers
gives the input away, and where the pointer is while the Slave keeps it. -/
open NoCapKVM.Topology
namespace NoCapKVM.App

open Discovery (ConnectionInfo MonitorInfo)
open Input

variable {state : AppState} {info : ConnectionInfo} {mask : UInt8} {frame : InputFrame}

/-- The logical position. -/
def AppState.position (state : AppState) : Point :=
  ⟨state.inputLogicalX, state.inputLogicalY⟩

/-- The logical position that a frame brings. -/
def AppState.reached (state : AppState) (frame : InputFrame) : Point :=
  ⟨state.inputLogicalX + frame.dx, state.inputLogicalY + frame.dy⟩

/-- The margin is passed exactly where some edge is passed by that much. -/
theorem pastMargin_iff {b : ClusterBounds} (hProper : b.Proper) (p : Point) :
    pastMargin (checkBoundary b p.x p.y) p.x p.y = true ↔ ∃ d, kReturnMargin ≤ b.past d p := by
  obtain ⟨hX, hY⟩ := hProper
  have hCrossed : (checkBoundary b p.x p.y).crossed = false →
      b.minX < p.x ∧ p.x < b.maxX ∧ b.minY < p.y ∧ p.y < b.maxY := by
    unfold checkBoundary
    simp only
    split_ifs <;> simp
    omega
  unfold pastMargin
  simp only [checkBoundary_clampedX, checkBoundary_clampedY, Bool.and_eq_true, Bool.or_eq_true, decide_eq_true_eq]
  constructor
  · rintro ⟨-, (hRight | hLeft) | (hDown | hUp)⟩
    · exact ⟨.right, by simp only [clamp, ClusterBounds.past, kReturnMargin] at *; omega⟩
    · exact ⟨.left, by simp only [clamp, ClusterBounds.past, kReturnMargin] at *; omega⟩
    · exact ⟨.down, by simp only [clamp, ClusterBounds.past, kReturnMargin] at *; omega⟩
    · exact ⟨.up, by simp only [clamp, ClusterBounds.past, kReturnMargin] at *; omega⟩
  · rintro ⟨d, hPast⟩
    constructor
    · by_contra hNot
      have hInside := hCrossed (Bool.eq_false_iff.mpr hNot)
      cases d <;> simp only [ClusterBounds.past, kReturnMargin] at hPast <;> omega
    · cases d <;> simp only [clamp, ClusterBounds.past, kReturnMargin] at * <;> omega

/-- An outbound crossing takes a Slave with screens, an arrangement, and the
edge that faces them. It does not come right after a handoff. -/
theorem outboundCrossing_isSome {x y : Int} {bc : BoundaryCheck} :
    (outboundCrossing state info x y bc).isSome ↔
      state.inputJustHandedOff = false ∧ info.peerMonitors ≠ [] ∧
        ∃ entry, state.screenArrangement info.peerDeviceId = some entry ∧
          bc.crossed = true ∧ bc.direction = entry.direction := by
  unfold outboundCrossing
  cases hEntry : state.screenArrangement info.peerDeviceId with
  | none => simp
  | some entry =>
      simp only
      split
      case isTrue hGuard =>
        simp only [Bool.and_eq_true, Bool.not_eq_true', decide_eq_true_eq] at hGuard
        obtain ⟨⟨⟨hJust, hCrossed⟩, hDirection⟩, hMonitors⟩ := hGuard
        rw [(computeCrossing_target hMonitors _ _ _).1, if_pos rfl]
        exact iff_of_true rfl ⟨hJust, hMonitors, entry, rfl, hCrossed, hDirection.symm⟩
      case isFalse hGuard =>
        refine iff_of_false Bool.false_ne_true ?_
        rintro ⟨hJust, hMonitors, _, hSame, hCrossed, hDirection⟩
        cases hSame
        exact hGuard (by simp [hJust, hCrossed, hDirection, hMonitors])

/-- Master hands over when the arranged edge is reported, but not right after
a handoff. -/
theorem handleMasterOwned_hands_iff (hOwned : state.inputOwnedByMaster = true) :
    (handleMasterOwned state info mask frame).1.inputOwnedByMaster = false ↔
      state.inputJustHandedOff = false ∧ info.peerMonitors ≠ [] ∧
        ∃ entry, state.screenArrangement info.peerDeviceId = some entry ∧
          Reports (computeBounds state.localMonitors) (state.reached frame) entry.direction := by
  unfold Reports
  rw [← outboundCrossing_isSome (x := (state.reached frame).x) (y := (state.reached frame).y)]
  unfold handleMasterOwned AppState.reached
  simp only
  split
  case h_1 hSome => simp [hSome]
  case h_2 hNone => simp [hNone, hOwned]

/-- An edge is crossable exactly if it is reported and faces the other
machine. -/
theorem crossableEdge_iff {bc : BoundaryCheck} {inv : ArrangementEntry} :
    crossableEdge state info bc = some inv ↔
      ∃ entry, state.screenArrangement info.peerDeviceId = some entry ∧ bc.crossed = true ∧
        bc.direction = opposite entry.direction ∧
        inv = invertEntry entry (computeBounds state.localMonitors) (computeBounds info.peerMonitors) := by
  refine ⟨crossableEdge_eq_some, ?_⟩
  rintro ⟨entry, hEntry, hCrossed, hDirection, rfl⟩
  simp [crossableEdge, hEntry, hCrossed, hDirection, invertEntry]

/-- A return takes the margin, and does not come right after a handoff. -/
theorem returnCrossing_isSome {inv : ArrangementEntry} {x y : Int} {bc : BoundaryCheck}
    (hMaster : state.localMonitors ≠ []) :
    (returnCrossing state inv x y bc).isSome ↔ state.inputJustHandedOff = false ∧ pastMargin bc x y = true := by
  have hTarget := (computeCrossing_target hMaster inv.direction inv.offset bc.perpPos).1
  simp only [returnCrossing, hTarget, if_true]
  cases state.inputJustHandedOff <;> cases pastMargin bc x y <;> simp

/-- The Slave gives back when the edge that faces Master is reported and any
edge is passed by the margin, but not right after a handoff. -/
theorem handleSlaveOwned_returns_iff (hOwned : state.inputOwnedByMaster = false)
    (hSlave : (computeBounds info.peerMonitors).Proper) (hMaster : state.localMonitors ≠ []) :
    (handleSlaveOwned state info frame).1.inputOwnedByMaster = true ↔
      state.inputJustHandedOff = false ∧
        ∃ entry, state.screenArrangement info.peerDeviceId = some entry ∧
          Reports (computeBounds info.peerMonitors) (state.reached frame) (opposite entry.direction) ∧
            ∃ d, kReturnMargin ≤ (computeBounds info.peerMonitors).past d (state.reached frame) := by
  have hCrossing : (handleSlaveOwned state info frame).1.inputOwnedByMaster = true ↔
      ∃ inv, crossableEdge state info (checkBoundary (computeBounds info.peerMonitors) (state.reached frame).x
        (state.reached frame).y) = some inv ∧
          (returnCrossing state inv (state.reached frame).x (state.reached frame).y
            (checkBoundary (computeBounds info.peerMonitors) (state.reached frame).x (state.reached frame).y)).isSome := by
    unfold handleSlaveOwned AppState.reached
    simp only
    split
    case h_1 hNone => simp [hNone, hOwned]
    case h_2 inv hEdge =>
      split
      case h_1 hNone => simp [hEdge, hNone, hOwned]
      case h_2 hSome => simp [hEdge, hSome]
  simp only [hCrossing, crossableEdge_iff, returnCrossing_isSome hMaster, pastMargin_iff hSlave]
  constructor
  · rintro ⟨inv, ⟨entry, hEntry, hCrossed, hDirection, -⟩, hJust, hPast⟩
    exact ⟨hJust, entry, hEntry, ⟨hCrossed, hDirection⟩, hPast⟩
  · rintro ⟨hJust, entry, hEntry, ⟨hCrossed, hDirection⟩, hPast⟩
    exact ⟨_, ⟨entry, hEntry, hCrossed, hDirection, rfl⟩, hJust, hPast⟩

/-- The position is clamped, except for the axis of an edge that
faces Master. -/
theorem handleSlaveOwned_kept
    (hKept : (handleSlaveOwned state info frame).1.inputOwnedByMaster = false) :
    let p := state.reached frame
    let bc := checkBoundary (computeBounds info.peerMonitors) p.x p.y
    (handleSlaveOwned state info frame).1.position = ⟨bc.clampedX, bc.clampedY⟩ ∨
      (∃ entry, state.screenArrangement info.peerDeviceId = some entry ∧ bc.crossed = true ∧
        bc.direction = opposite entry.direction) ∧
        (handleSlaveOwned state info frame).1.position =
          ⟨if bc.direction.horizontal then p.x else bc.clampedX,
            if bc.direction.horizontal then bc.clampedY else p.y⟩ := by
  intro p bc
  unfold handleSlaveOwned at hKept ⊢
  simp only at hKept ⊢
  split
  case h_1 => exact .inl rfl
  case h_2 inv hEdge =>
    obtain ⟨entry, hEntry, hCrossed, hDirection, -⟩ := crossableEdge_eq_some hEdge
    split
    case h_1 => exact .inr ⟨⟨entry, hEntry, hCrossed, hDirection⟩, rfl⟩
    case h_2 hSome =>
      rw [hEdge] at hKept
      simp only [hSome] at hKept
      cases hKept

/-- While the Slave keeps the input the pointer is on its screens, or past the
edge that faces Master by less than the margin. Right after a handoff it may
be farther. -/
theorem slave_pointer_inside (hOwned : state.inputOwnedByMaster = false)
    (hMaster : (computeBounds state.localMonitors).Wide) (hSlave : (computeBounds info.peerMonitors).Wide)
    (hKept : (handleSlaveOwned state info frame).1.inputOwnedByMaster = false) (d : Direction) :
    let past := (computeBounds info.peerMonitors).past d (handleSlaveOwned state info frame).1.position
    past ≤ 0 ∨ ∃ entry, state.screenArrangement info.peerDeviceId = some entry ∧ d = opposite entry.direction ∧
      (state.inputJustHandedOff = false → past < kReturnMargin) := by
  intro past
  rcases handleSlaveOwned_kept hKept with hClamped | ⟨⟨entry, hEntry, hCrossed, hDirection⟩, hPosition⟩
  · left
    show (computeBounds info.peerMonitors).past d _ ≤ 0
    rw [hClamped]
    exact contains_iff_past.mp (contains_clamped hSlave.proper _ _) d
  · rcases past_kept hSlave.proper (state.reached frame) hCrossed d with hInside | ⟨hEdge, hPast⟩
    · left
      show (computeBounds info.peerMonitors).past d _ ≤ 0
      rw [hPosition]
      exact hInside
    · refine .inr ⟨entry, hEntry, hEdge.trans hDirection, fun hJust => ?_⟩
      by_contra hFar
      rw [← hPosition] at hPast
      have hBack : (handleSlaveOwned state info frame).1.inputOwnedByMaster = true :=
        (handleSlaveOwned_returns_iff hOwned hSlave.proper (proper_ne_nil hMaster.proper)).mpr
          ⟨hJust, entry, hEntry, ⟨hCrossed, hDirection⟩, d, hPast ▸ not_lt.mp hFar⟩
      rw [hBack] at hKept
      cases hKept

/-- After a move of seven pixels to the left, the pointer is inside, or within
the margin of the edge that faces the Master. -/
theorem slave_pointer_inside_pushed :
    let past := (computeBounds shortSlave.peerMonitors).past .left
      (handleSlaveOwned tallMaster shortSlave { dx := -7 }).1.position
    past ≤ 0 ∨ ∃ entry, tallMaster.screenArrangement shortSlave.peerDeviceId = some entry ∧
      Direction.left = opposite entry.direction ∧ (tallMaster.inputJustHandedOff = false → past < kReturnMargin) :=
  slave_pointer_inside rfl (computeBounds_wide (by decide) (by decide)) (computeBounds_wide (by decide) (by decide))
    (by decide +kernel) .left

/-- A handoff goes through the edge of the arrangement and through no other,
whenever the pointer is past it. -/
theorem hands_through_iff {entry : ArrangementEntry} (hEntry : state.screenArrangement info.peerDeviceId = some entry)
    (hOwned : state.inputOwnedByMaster = true) (hMaster : (computeBounds state.localMonitors).Wide) :
    (handleMasterOwned state info mask frame).1.inputOwnedByMaster = false ↔
      state.inputJustHandedOff = false ∧ info.peerMonitors ≠ [] ∧
        0 ≤ (computeBounds state.localMonitors).past entry.direction (state.reached frame) ∧
          (entry.direction.horizontal = true ∨
            (computeBounds state.localMonitors).Between entry.direction (state.reached frame)) := by
  simp only [handleMasterOwned_hands_iff hOwned, hEntry, Option.some.injEq, exists_eq_left', reports_iff hMaster]

/-- So does a return, through the opposite edge. -/
theorem returns_through_iff {entry : ArrangementEntry}
    (hEntry : state.screenArrangement info.peerDeviceId = some entry) (hOwned : state.inputOwnedByMaster = false)
    (hMaster : (computeBounds state.localMonitors).Wide) (hSlave : (computeBounds info.peerMonitors).Wide) :
    (handleSlaveOwned state info frame).1.inputOwnedByMaster = true ↔
      state.inputJustHandedOff = false ∧
        (0 ≤ (computeBounds info.peerMonitors).past (opposite entry.direction) (state.reached frame) ∧
          (entry.direction.horizontal = true ∨
            (computeBounds info.peerMonitors).Between entry.direction (state.reached frame))) ∧
        ∃ d, kReturnMargin ≤ (computeBounds info.peerMonitors).past d (state.reached frame) := by
  simp only [handleSlaveOwned_returns_iff hOwned hSlave.proper (proper_ne_nil hMaster.proper), hEntry,
    Option.some.injEq, exists_eq_left', reports_iff hSlave, opposite_horizontal, between_opposite]

/-- Anywhere on the edge that faces the other machine the input goes over,
unless it is at an end point of an edge above or below. -/
theorem facing_edge_crossable_iff {entry : ArrangementEntry}
    (hEntry : state.screenArrangement info.peerDeviceId = some entry)
    (hMaster : (computeBounds state.localMonitors).Wide) (hSlave : (computeBounds info.peerMonitors).Wide)
    (hJust : state.inputJustHandedOff = false) :
    let m := computeBounds state.localMonitors
    let s := computeBounds info.peerMonitors
    let d := entry.direction
    let p := state.reached frame
    (state.inputOwnedByMaster = true → 0 ≤ m.past d p → m.Covers d p →
      ((handleMasterOwned state info mask frame).1.inputOwnedByMaster = false ↔
        d.horizontal = true ∨ m.Between d p)) ∧
    (state.inputOwnedByMaster = false → kReturnMargin ≤ s.past (opposite d) p → s.Covers d p →
      ((handleSlaveOwned state info frame).1.inputOwnedByMaster = true ↔
        d.horizontal = true ∨ s.Between d p)) := by
  intro m s d p
  constructor
  · intro hOwned hPast _
    rw [hands_through_iff hEntry hOwned hMaster]
    exact ⟨fun h => h.2.2.2, fun h => ⟨hJust, proper_ne_nil hSlave.proper, hPast, h⟩⟩
  · intro hOwned hPast _
    have hTouch : 0 ≤ s.past (opposite d) p := le_trans (by decide) hPast
    rw [returns_through_iff hEntry hOwned hMaster hSlave]
    exact ⟨fun h => h.2.1.2, fun h => ⟨hJust, ⟨hTouch, h⟩, opposite d, hPast⟩⟩

/-- The Slave sits above Master, which has the input. -/
def belowSlave : AppState :=
  { tallMaster with screenArrangement := fun _ => some ⟨7, .up, 0⟩, inputOwnedByMaster := true }

/-- The same with the input on the Slave. -/
def belowSlaveLent : AppState := { belowSlave with inputOwnedByMaster := false }

/-- The Slave sits above, and the pointer moves by 900 to the side and by 1070
upwards in one frame. -/
theorem facing_edge_crossable_up :
    let p := belowSlave.reached { dx := 900, dy := -1070 }
    ((handleMasterOwned belowSlave shortSlave 0 { dx := 900, dy := -1070 }).1.inputOwnedByMaster = false ↔
      Direction.up.horizontal = true ∨ (computeBounds belowSlave.localMonitors).Between .up p) :=
  (facing_edge_crossable_iff
    (show belowSlave.screenArrangement shortSlave.peerDeviceId = some ⟨7, .up, 0⟩ from rfl) (by decide +kernel)
    (by decide +kernel) rfl).1
    rfl (by decide +kernel) (by decide +kernel)

/-- In the upper left corner of Master's screens, and past the lower left one
of the Slave's. -/
theorem corner_not_crossable :
    let out : InputFrame := { dx := -5, dy := -1070 }
    let back : InputFrame := { dx := -5, dy := 14 }
    ((computeBounds belowSlave.localMonitors).past .up (belowSlave.reached out) = 0 ∧
      (computeBounds belowSlave.localMonitors).Covers .up (belowSlave.reached out) ∧
      (handleMasterOwned belowSlave shortSlave 0 out).1.inputOwnedByMaster = true) ∧
    (computeBounds shortSlave.peerMonitors).past .down (belowSlaveLent.reached back) = kReturnMargin ∧
      (computeBounds shortSlave.peerMonitors).Covers .down (belowSlaveLent.reached back) ∧
      (handleSlaveOwned belowSlaveLent shortSlave back).1.inputOwnedByMaster = false := by
  decide +kernel

/-- The position is at the edge `d` on the left or right of the box, or
less than the margin past it, and goes the margin or more beyond the box
above or below. -/
def Grazes (b : ClusterBounds) (d : Direction) (p : Point) : Prop :=
  d.horizontal = true ∧ 0 ≤ b.past d p ∧ b.past d p < kReturnMargin ∧
    (kReturnMargin ≤ b.past .up p ∨ kReturnMargin ≤ b.past .down p)

instance (b : ClusterBounds) (d : Direction) (p : Point) : Decidable (Grazes b d p) :=
  inferInstanceAs (Decidable (_ ∧ _))

/-- Without a push through the reported edge, the margin was passed above or
below it. -/
theorem grazes_of_past {b : ClusterBounds} (hWide : b.Wide) {d : Direction} {p : Point} (hTouch : 0 ≤ b.past d p)
    (hReported : d.horizontal = true ∨ b.Between d p) (hShort : b.past d p < kReturnMargin)
    {e : Direction} (hPast : kReturnMargin ≤ b.past e p) : Grazes b d p := by
  have hOther : b.past (opposite d) p < 0 := past_opposite_neg hWide hTouch
  have hInside : ¬ b.past e p < 0 := not_lt.mpr (le_trans (by decide) hPast)
  have hAxis : e.horizontal ≠ d.horizontal := by
    intro hSame
    have hEdge : e = d ∨ e = opposite d := by cases d <;> cases e <;> simp_all [Direction.horizontal, opposite]
    rcases hEdge with rfl | rfl
    · exact absurd hPast (not_le.mpr hShort)
    · exact hInside hOther
  rcases hReported with hHorizontal | hBetween
  · refine ⟨hHorizontal, hTouch, hShort, ?_⟩
    cases e with
    | left | right => exact absurd hHorizontal.symm hAxis
    | up => exact .inl hPast
    | down => exact .inr hPast
  · exact absurd (past_of_between hBetween hAxis) hInside

/-- Control comes back only with a push through the edge that faces
Master, unless the pointer grazes that edge while it is pushed past the
box above or below. -/
theorem return_deliberate_iff (hOwned : state.inputOwnedByMaster = false)
    (hMaster : (computeBounds state.localMonitors).Wide) (hSlave : (computeBounds info.peerMonitors).Wide) :
    let s := computeBounds info.peerMonitors
    let p := state.reached frame
    ((handleSlaveOwned state info frame).1.inputOwnedByMaster = true →
      ∃ entry, state.screenArrangement info.peerDeviceId = some entry ∧
        kReturnMargin ≤ s.past (opposite entry.direction) p) ↔
    ¬ (state.inputJustHandedOff = false ∧
      ∃ entry, state.screenArrangement info.peerDeviceId = some entry ∧ Grazes s (opposite entry.direction) p) := by
  intro s p
  constructor
  · rintro hPush ⟨hJust, entry, hEntry, hHorizontal, hTouch, hShort, hBeyond⟩
    have hBack : (handleSlaveOwned state info frame).1.inputOwnedByMaster = true := by
      rw [returns_through_iff hEntry hOwned hMaster hSlave]
      refine ⟨hJust, ⟨hTouch, .inl ((opposite_horizontal _).symm.trans hHorizontal)⟩, ?_⟩
      exact hBeyond.elim (fun hUp => ⟨.up, hUp⟩) fun hDown => ⟨.down, hDown⟩
    obtain ⟨_, hSame, hPast⟩ := hPush hBack
    cases hEntry.symm.trans hSame
    exact absurd hPast (not_le.mpr hShort)
  · intro hNot hBack
    obtain ⟨hJust, entry, hEntry, hReports, e, hPast⟩ :=
      (handleSlaveOwned_returns_iff hOwned hSlave.proper (proper_ne_nil hMaster.proper)).mp hBack
    obtain ⟨hTouch, hReported⟩ := (reports_iff hSlave _ _).mp hReports
    refine ⟨entry, hEntry, ?_⟩
    by_contra hShort
    exact hNot ⟨hJust, entry, hEntry, grazes_of_past hSlave hTouch hReported (not_le.mp hShort) hPast⟩

/-- The pointer moves nine pixels to the left in one frame. -/
theorem return_deliberate_pushed :
    let p := tallMaster.reached { dx := -9 }
    ((handleSlaveOwned tallMaster shortSlave { dx := -9 }).1.inputOwnedByMaster = true →
      ∃ entry, tallMaster.screenArrangement shortSlave.peerDeviceId = some entry ∧
        kReturnMargin ≤ (computeBounds shortSlave.peerMonitors).past (opposite entry.direction) p) ↔
    ¬ (tallMaster.inputJustHandedOff = false ∧
      ∃ entry, tallMaster.screenArrangement shortSlave.peerDeviceId = some entry ∧
        Grazes (computeBounds shortSlave.peerMonitors) (opposite entry.direction) p) :=
  return_deliberate_iff rfl (by decide +kernel) (by decide +kernel)

/-- The left edge is only touched, and the pointer goes 4 pixels
below the screen. -/
theorem grazing_return :
    let frame : InputFrame := { dx := -5, dy := 14 }
    (computeBounds tallMaster.localMonitors).Wide ∧ (computeBounds shortSlave.peerMonitors).Wide ∧
      tallMaster.inputOwnedByMaster = false ∧ (tallMaster.screenArrangement 7).map (·.direction) = some .right ∧
      (computeBounds shortSlave.peerMonitors).past .left (tallMaster.reached frame) = 0 ∧
      (handleSlaveOwned tallMaster shortSlave frame).1.inputOwnedByMaster = true := by
  decide +kernel

end NoCapKVM.App
