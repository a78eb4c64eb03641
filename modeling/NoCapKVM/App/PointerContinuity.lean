import NoCapKVM.App.InputPump

/-! The pointer across the seam between the two machines: where it is before and
after each handoff, seen in Master's coordinates. -/
open NoCapKVM.Topology
namespace NoCapKVM.App

open Discovery (ConnectionInfo MonitorInfo)
open Input

section Unfold

variable (entry : ArrangementEntry) (m s : ClusterBounds)

/-- The distance from the shared edge, continued beyond it. -/
def unfoldAlong (q : Point) : Int :=
  m.edge entry.direction + (entry.direction.along q - s.edge (opposite entry.direction))

def unfoldAcross (q : Point) : Int :=
  entry.direction.across q - s.acrossMin entry.direction + entry.offset

/-- The nearest position to `v` that the Slave's screens cover, in Master's
coordinates. -/
def coverInMaster (v : Int) : Int :=
  clamp v entry.offset (entry.offset + (s.acrossMax entry.direction - s.acrossMin entry.direction))

/-- Covering on the Slave and then unfolding is unfolding and
then covering. -/
theorem coverInMaster_unfold (v : Int) :
    s.cover entry.direction v - s.acrossMin entry.direction + entry.offset =
      coverInMaster entry s (v - s.acrossMin entry.direction + entry.offset) := by
  unfold coverInMaster ClusterBounds.cover clamp
  omega

/-- A coordinate that the Slave covers is its own nearest one. -/
theorem coverInMaster_of_mem {v : Int} (hLo : entry.offset ≤ v)
    (hHi : v ≤ entry.offset + (s.acrossMax entry.direction - s.acrossMin entry.direction)) :
    coverInMaster entry s v = v :=
  clamp_of_mem hLo hHi

end Unfold

@[simp] theorem carryOvershoot_along (cross : CrossingResult) (d : Direction) (overshoot : Int) :
    d.along (carryOvershoot cross d.horizontal overshoot) = d.along ⟨cross.x, cross.y⟩ + overshoot := by
  cases h : d.horizontal <;> simp [Direction.along, carryOvershoot, h]

@[simp] theorem carryOvershoot_across (cross : CrossingResult) (d : Direction) (overshoot : Int) :
    d.across (carryOvershoot cross d.horizontal overshoot) = d.across ⟨cross.x, cross.y⟩ := by
  cases h : d.horizontal <;> simp [Direction.across, carryOvershoot, h]

theorem overshoot_eq (d : Direction) (x y clampedX clampedY : Int) :
    (if d.horizontal then x - clampedX else y - clampedY) =
      d.along ⟨x, y⟩ - d.along ⟨clampedX, clampedY⟩ := by
  cases h : d.horizontal <;> simp [Direction.along, h]

variable {state : AppState} {info : ConnectionInfo} {p : Point} {x y : Int} {bc : BoundaryCheck}

/-- An outbound crossing goes through the arranged edge to the
peer's screens. -/
theorem outboundCrossing_eq_some (h : outboundCrossing state info x y bc = some p) :
    ∃ entry, state.screenArrangement info.peerDeviceId = some entry ∧ bc.crossed = true ∧
      entry.direction = bc.direction ∧ info.peerMonitors ≠ [] ∧
      p = carryOvershoot (computeCrossing info.peerMonitors entry.direction entry.offset bc.perpPos)
        entry.direction.horizontal
        (entry.direction.along ⟨x, y⟩ - entry.direction.along ⟨bc.clampedX, bc.clampedY⟩) := by
  unfold outboundCrossing at h
  cases hEntry : state.screenArrangement info.peerDeviceId with
  | none => simp [hEntry] at h
  | some entry =>
      simp only [hEntry] at h
      split at h
      case isFalse => cases h
      case isTrue hGuard =>
        simp only [Bool.and_eq_true, decide_eq_true_eq] at hGuard
        obtain ⟨⟨⟨-, hCrossed⟩, hDirection⟩, hMonitors⟩ := hGuard
        split at h
        case isFalse => cases h
        case isTrue =>
          refine ⟨entry, rfl, hCrossed, hDirection, hMonitors, ?_⟩
          rw [← Option.some.inj h, overshoot_eq, hDirection]

/-- An edge is crossable if it is the one that is reported, and faces the
other machine. -/
theorem crossableEdge_eq_some {inv : ArrangementEntry} (h : crossableEdge state info bc = some inv) :
    ∃ entry, state.screenArrangement info.peerDeviceId = some entry ∧ bc.crossed = true ∧
      bc.direction = opposite entry.direction ∧
      inv = invertEntry entry (computeBounds state.localMonitors) (computeBounds info.peerMonitors) := by
  unfold crossableEdge at h
  cases hEntry : state.screenArrangement info.peerDeviceId with
  | none => simp [hEntry] at h
  | some entry =>
      simp only [hEntry] at h
      split at h
      case isFalse => cases h
      case isTrue hGuard =>
        simp only [Bool.and_eq_true, decide_eq_true_eq] at hGuard
        exact ⟨entry, rfl, hGuard.1, hGuard.2, (Option.some.inj h).symm⟩

/-- A return lands where the crossing says, and is carried on by what the
pointer has overshot. -/
theorem returnCrossing_eq_some {inv : ArrangementEntry} (h : returnCrossing state inv x y bc = some p) :
    state.localMonitors ≠ [] ∧
      p = carryOvershoot (computeCrossing state.localMonitors inv.direction inv.offset bc.perpPos)
        bc.direction.horizontal
        (bc.direction.along ⟨x, y⟩ - bc.direction.along ⟨bc.clampedX, bc.clampedY⟩) := by
  unfold returnCrossing at h
  split at h
  case isTrue => cases h
  case isFalse =>
    simp only at h
    split at h
    case isFalse => cases h
    case isTrue hTarget =>
      refine ⟨?_, by rw [← Option.some.inj h, overshoot_eq]⟩
      rintro hMonitors
      rw [hMonitors] at hTarget
      cases hTarget

/-- Master owns the input after its own handler unless the pointer crosses. -/
theorem handleMasterOwned_handoff {mask : UInt8} {frame : InputFrame} (hOwned : state.inputOwnedByMaster = true)
    (h : (handleMasterOwned state info mask frame).1.inputOwnedByMaster = false) :
    let x := state.inputLogicalX + frame.dx
    let y := state.inputLogicalY + frame.dy
    let state' := (handleMasterOwned state info mask frame).1
    outboundCrossing state info x y (checkBoundary (computeBounds state.localMonitors) x y) =
      some ⟨state'.inputLogicalX, state'.inputLogicalY⟩ := by
  unfold handleMasterOwned at h ⊢
  simp only at h ⊢
  split at h
  case h_1 hCrossing => simp [hCrossing]
  case h_2 => simp [hOwned] at h

/-- A frame that gives the input back has crossed the edge that
faces the Master. -/
theorem handleSlaveOwned_handoff {frame : InputFrame} (hOwned : state.inputOwnedByMaster = false)
    (h : (handleSlaveOwned state info frame).1.inputOwnedByMaster = true) :
    let x := state.inputLogicalX + frame.dx
    let y := state.inputLogicalY + frame.dy
    let bc := checkBoundary (computeBounds info.peerMonitors) x y
    let state' := (handleSlaveOwned state info frame).1
    ∃ inv, crossableEdge state info bc = some inv ∧
      returnCrossing state inv x y bc = some ⟨state'.inputLogicalX, state'.inputLogicalY⟩ := by
  unfold handleSlaveOwned at h ⊢
  simp only at h ⊢
  split at h
  case h_1 => simp [hOwned] at h
  case h_2 inv hEdge =>
    split at h
    case h_1 => simp [hOwned] at h
    case h_2 hCrossing => exact ⟨inv, hEdge, by simp [hCrossing]⟩

/-- The two axes of a crossing from a box to the screens on the other side of
its edge `d`. -/
theorem crossing_axes {b : ClusterBounds} (hProper : b.Proper) (x y : Int)
    (hCrossed : (checkBoundary b x y).crossed = true) {target : List MonitorInfo} (hTarget : target ≠ [])
    (offset : Int) :
    let bc := checkBoundary b x y
    let d := bc.direction
    let p := carryOvershoot (computeCrossing target d offset bc.perpPos) d.horizontal
      (d.along ⟨x, y⟩ - d.along ⟨bc.clampedX, bc.clampedY⟩)
    d.along p = (computeBounds target).edge (opposite d) + (d.along ⟨x, y⟩ - b.edge d) ∧
      d.across p = (computeBounds target).cover d
        (b.cover d (d.across ⟨x, y⟩) - offset + (computeBounds target).acrossMin d) := by
  intro bc d p
  obtain ⟨hEdge, hPerp⟩ := checkBoundary_crossed hProper ⟨x, y⟩ hCrossed
  constructor
  · calc d.along p
        = d.along ⟨_, _⟩ + (d.along ⟨x, y⟩ - d.along ⟨bc.clampedX, bc.clampedY⟩) :=
          carryOvershoot_along _ d _
      _ = (computeBounds target).edge (opposite d) + (d.along ⟨x, y⟩ - b.edge d) := by
          rw [(computeCrossing_target hTarget d offset bc.perpPos).2.1, hEdge]
  · calc d.across p
        = d.across ⟨_, _⟩ := carryOvershoot_across _ d _
      _ = _ := by rw [computeCrossing_across hTarget d offset bc.perpPos, hPerp]

/-- Out to the Slave: the pointer keeps its distance along the axis it
crosses. Across, it is covered by the machine it leaves and then by the
one it enters. -/
theorem handleMasterOwned_continuous {mask : UInt8} {frame : InputFrame}
    (hMaster : (computeBounds state.localMonitors).Proper) (hOwned : state.inputOwnedByMaster = true)
    (h : (handleMasterOwned state info mask frame).1.inputOwnedByMaster = false) :
    let state' := (handleMasterOwned state info mask frame).1
    let before : Point := ⟨state.inputLogicalX + frame.dx, state.inputLogicalY + frame.dy⟩
    let after : Point := ⟨state'.inputLogicalX, state'.inputLogicalY⟩
    let m := computeBounds state.localMonitors
    let s := computeBounds info.peerMonitors
    ∃ entry, state.screenArrangement info.peerDeviceId = some entry ∧
      unfoldAlong entry m s after = entry.direction.along before ∧
      unfoldAcross entry s after =
        coverInMaster entry s (m.cover entry.direction (entry.direction.across before)) := by
  intro state' before after m s
  obtain ⟨entry, hEntry, hCrossed, hDirection, hTarget, hPoint⟩ :=
    outboundCrossing_eq_some (handleMasterOwned_handoff hOwned h)
  obtain ⟨hAlong, hAcross⟩ := crossing_axes hMaster before.x before.y hCrossed hTarget entry.offset
  rw [← hDirection] at hAlong hAcross
  rw [← hPoint] at hAlong hAcross
  refine ⟨entry, hEntry, ?_, ?_⟩
  · unfold unfoldAlong
    rw [hAlong]
    show m.edge entry.direction +
      (s.edge (opposite entry.direction) + (entry.direction.along before - m.edge entry.direction) -
        s.edge (opposite entry.direction)) = entry.direction.along before
    omega
  · unfold unfoldAcross
    rw [hAcross, coverInMaster_unfold]
    congr 1
    show m.cover entry.direction (entry.direction.across before) - entry.offset +
      s.acrossMin entry.direction - s.acrossMin entry.direction + entry.offset = _
    omega

/-- Back to Master, in the same terms. -/
theorem handleSlaveOwned_continuous {frame : InputFrame}
    (hSlave : (computeBounds info.peerMonitors).Proper) (hOwned : state.inputOwnedByMaster = false)
    (h : (handleSlaveOwned state info frame).1.inputOwnedByMaster = true) :
    let state' := (handleSlaveOwned state info frame).1
    let before : Point := ⟨state.inputLogicalX + frame.dx, state.inputLogicalY + frame.dy⟩
    let after : Point := ⟨state'.inputLogicalX, state'.inputLogicalY⟩
    let m := computeBounds state.localMonitors
    let s := computeBounds info.peerMonitors
    ∃ entry, state.screenArrangement info.peerDeviceId = some entry ∧
      entry.direction.along after = unfoldAlong entry m s before ∧
      entry.direction.across after =
        m.cover entry.direction (coverInMaster entry s (unfoldAcross entry s before)) := by
  intro state' before after m s
  obtain ⟨inv, hInv, hReturn⟩ := handleSlaveOwned_handoff hOwned h
  obtain ⟨entry, hEntry, hCrossed, hDirection, hInverse⟩ := crossableEdge_eq_some hInv
  obtain ⟨hTarget, hPoint⟩ := returnCrossing_eq_some hReturn
  have hInvDirection : inv.direction = opposite entry.direction := congrArg (·.direction) hInverse
  have hOffset : inv.offset = s.acrossMin entry.direction + m.acrossMin entry.direction - entry.offset := by
    rw [hInverse, invertEntry_offset]
  obtain ⟨hAlong, hAcross⟩ := crossing_axes hSlave before.x before.y hCrossed hTarget inv.offset
  rw [hInvDirection, ← hDirection] at hPoint
  rw [← hPoint, hDirection] at hAlong hAcross
  simp only [opposite_along, opposite_across, opposite_opposite, cover_opposite, acrossMin_opposite]
    at hAlong hAcross
  refine ⟨entry, hEntry, ?_, ?_⟩
  · show entry.direction.along after =
      m.edge entry.direction + (entry.direction.along before - s.edge (opposite entry.direction))
    exact hAlong
  · show entry.direction.across after = m.cover entry.direction
      (coverInMaster entry s (entry.direction.across before - s.acrossMin entry.direction + entry.offset))
    rw [← coverInMaster_unfold, hAcross, hOffset]
    congr 1
    show s.cover entry.direction (entry.direction.across before) -
      (s.acrossMin entry.direction + m.acrossMin entry.direction - entry.offset) +
      m.acrossMin entry.direction = _
    omega

/-- Straight out and back: a position that both machines cover is kept. -/
theorem crossing_round_trip (entry : ArrangementEntry) {master slave : List MonitorInfo} (hMaster : master ≠ [])
    (hSlave : slave ≠ []) {pos : Int}
    (hCoveredM : (computeBounds master).cover entry.direction pos = pos)
    (hCoveredS : coverInMaster entry (computeBounds slave) pos = pos) :
    let out := computeCrossing slave entry.direction entry.offset pos
    let inv := invertEntry entry (computeBounds master) (computeBounds slave)
    let back := computeCrossing master inv.direction inv.offset (entry.direction.across ⟨out.x, out.y⟩)
    entry.direction.across ⟨back.x, back.y⟩ = pos := by
  intro out inv back
  have hOut : entry.direction.across ⟨out.x, out.y⟩ =
      pos - entry.offset + (computeBounds slave).acrossMin entry.direction := by
    have hAcross := (computeCrossing_target hSlave entry.direction entry.offset pos).2.2
    rw [show clamp pos entry.offset _ = pos from hCoveredS] at hAcross
    exact hAcross
  have hDirection : inv.direction = opposite entry.direction := rfl
  have hBack := computeCrossing_across hMaster inv.direction inv.offset (entry.direction.across ⟨out.x, out.y⟩)
  simp only [hDirection, opposite_across, cover_opposite, acrossMin_opposite] at hBack
  calc entry.direction.across ⟨back.x, back.y⟩
      = (computeBounds master).cover entry.direction
          (entry.direction.across ⟨out.x, out.y⟩ - inv.offset +
            (computeBounds master).acrossMin entry.direction) := hBack
    _ = (computeBounds master).cover entry.direction pos := by
        congr 1
        rw [hOut, show inv.offset = _ from invertEntry_offset entry _ _]
        omega
    _ = pos := hCoveredM

theorem proper_ne_nil {monitors : List MonitorInfo} (h : (computeBounds monitors).Proper) : monitors ≠ [] := by
  rintro rfl
  exact absurd h (by decide)

/-- At a handoff in either direction the distance along the crossed axis is
kept, and the position across it changes only by covering on the machine that
is left and then on the one that is entered. Straight out and back nothing
changes. -/
theorem handoffs_continuous (state : AppState) (info : ConnectionInfo) (mask : UInt8) (frame : InputFrame)
    (hMaster : (computeBounds state.localMonitors).Proper) (hSlave : (computeBounds info.peerMonitors).Proper) :
    let m := computeBounds state.localMonitors
    let s := computeBounds info.peerMonitors
    let before : Point := ⟨state.inputLogicalX + frame.dx, state.inputLogicalY + frame.dy⟩
    let out := (handleMasterOwned state info mask frame).1
    let back := (handleSlaveOwned state info frame).1
    (state.inputOwnedByMaster = true → out.inputOwnedByMaster = false →
      ∃ entry, state.screenArrangement info.peerDeviceId = some entry ∧
        unfoldAlong entry m s ⟨out.inputLogicalX, out.inputLogicalY⟩ = entry.direction.along before ∧
        unfoldAcross entry s ⟨out.inputLogicalX, out.inputLogicalY⟩ =
          coverInMaster entry s (m.cover entry.direction (entry.direction.across before))) ∧
    (state.inputOwnedByMaster = false → back.inputOwnedByMaster = true →
      ∃ entry, state.screenArrangement info.peerDeviceId = some entry ∧
        entry.direction.along ⟨back.inputLogicalX, back.inputLogicalY⟩ = unfoldAlong entry m s before ∧
        entry.direction.across ⟨back.inputLogicalX, back.inputLogicalY⟩ =
          m.cover entry.direction (coverInMaster entry s (unfoldAcross entry s before))) ∧
    (∀ (entry : ArrangementEntry) (pos : Int),
      m.acrossMin entry.direction ≤ pos → pos ≤ m.acrossMax entry.direction →
      entry.offset ≤ pos → pos ≤ entry.offset + (s.acrossMax entry.direction - s.acrossMin entry.direction) →
      let there := computeCrossing info.peerMonitors entry.direction entry.offset pos
      let inv := invertEntry entry m s
      let home := computeCrossing state.localMonitors inv.direction inv.offset
        (entry.direction.across ⟨there.x, there.y⟩)
      entry.direction.across ⟨home.x, home.y⟩ = pos) := by
  refine ⟨fun hOwned h => handleMasterOwned_continuous hMaster hOwned h,
    fun hOwned h => handleSlaveOwned_continuous hSlave hOwned h, ?_⟩
  intro entry pos hLoM hHiM hLoS hHiS
  exact crossing_round_trip entry (proper_ne_nil hMaster) (proper_ne_nil hSlave)
    (clamp_of_mem hLoM hHiM) (coverInMaster_of_mem entry _ hLoS hHiS)

/-- A Master with a tall screen, and a Slave of half its height
on its right. -/
def tallMaster : AppState where
  localMonitors := [{ width := 1920, height := 2160 }]
  screenArrangement := fun _ => some ⟨7, .right, 0⟩
  tcpServer := true
  inputHookActive := true
  inputOwnedByMaster := false
  inputLogicalX := 5
  inputLogicalY := 1070

def shortSlave : ConnectionInfo :=
  { state := .connected, peerDeviceId := 7, peerMonitors := [{ width := 1920, height := 1080 }] }

/-- The same machines, with the pointer on Master close to the shared edge. -/
def tallOwner : AppState :=
  { tallMaster with inputOwnedByMaster := true, inputLogicalX := 1915, inputLogicalY := 600 }

/-- A handoff to the Slave, one back to Master, and the way out and
straight back. -/
theorem handoffs_continuous_tall :
    let m := computeBounds tallMaster.localMonitors
    let s := computeBounds shortSlave.peerMonitors
    let out := (handleMasterOwned tallOwner shortSlave 0 { dx := 10 }).1
    let back := (handleSlaveOwned tallMaster shortSlave { dx := -20, dy := 5 }).1
    let home := computeCrossing tallMaster.localMonitors .left (invertEntry ⟨7, .right, 0⟩ m s).offset
      (computeCrossing shortSlave.peerMonitors .right 0 600).y
    (out.inputOwnedByMaster = false ∧ ∃ entry : ArrangementEntry,
      unfoldAlong entry m s ⟨out.inputLogicalX, out.inputLogicalY⟩ = entry.direction.along ⟨1925, 600⟩ ∧
      unfoldAcross entry s ⟨out.inputLogicalX, out.inputLogicalY⟩ =
        coverInMaster entry s (m.cover entry.direction (entry.direction.across ⟨1925, 600⟩))) ∧
    (back.inputOwnedByMaster = true ∧ ∃ entry : ArrangementEntry,
      entry.direction.along ⟨back.inputLogicalX, back.inputLogicalY⟩ = unfoldAlong entry m s ⟨-15, 1075⟩ ∧
      entry.direction.across ⟨back.inputLogicalX, back.inputLogicalY⟩ =
        m.cover entry.direction (coverInMaster entry s (unfoldAcross entry s ⟨-15, 1075⟩))) ∧
    home.y = 600 := by
  have hLeaves : (handleMasterOwned tallOwner shortSlave 0 { dx := 10 }).1.inputOwnedByMaster = false := by
    decide +kernel
  have hReturns : (handleSlaveOwned tallMaster shortSlave { dx := -20, dy := 5 }).1.inputOwnedByMaster = true := by
    decide +kernel
  obtain ⟨entry, -, hOut⟩ := (handoffs_continuous tallOwner shortSlave 0 { dx := 10 } (by decide +kernel)
    (by decide +kernel)).1 rfl hLeaves
  obtain ⟨-, hBack, hHome⟩ := handoffs_continuous tallMaster shortSlave 0 { dx := -20, dy := 5 } (by decide +kernel)
    (by decide +kernel)
  obtain ⟨entry', -, hBack⟩ := hBack rfl hReturns
  exact ⟨⟨hLeaves, entry, hOut⟩, ⟨hReturns, entry', hBack⟩, hHome ⟨7, .right, 0⟩ 600 (by decide +kernel)
    (by decide +kernel) (by decide +kernel) (by decide +kernel)⟩

/-- A swipe to the lower left leaves the Slave past its corner. Master's
screen covers the height of 1100 that the pointer has reached, and still it
enters at 1080. -/
theorem handoff_clamped_twice :
    let frame : InputFrame := { dx := -20, dy := 30 }
    let back := (handleSlaveOwned tallMaster shortSlave frame).1
    let entry : ArrangementEntry := ⟨7, .right, 0⟩
    let before : Point := ⟨-15, 1100⟩
    tallMaster.inputOwnedByMaster = false ∧ back.inputOwnedByMaster = true ∧
      (computeBounds tallMaster.localMonitors).Proper ∧ (computeBounds shortSlave.peerMonitors).Proper ∧
      back.inputLogicalY = 1080 ∧
      entry.direction.across ⟨back.inputLogicalX, back.inputLogicalY⟩ ≠
        (computeBounds tallMaster.localMonitors).cover entry.direction
          (unfoldAcross entry (computeBounds shortSlave.peerMonitors) before) := by
  decide +kernel

end NoCapKVM.App
