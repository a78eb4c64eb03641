import NoCapKVM.App.Deliveries
import NoCapKVM.App.FacingEdge
import NoCapKVM.Topology.Overflow

/-! The positions that the pump gives away: those sent to the Slave, and those where
the local cursor goes on when the input comes back. -/
open NoCapKVM.Topology
namespace NoCapKVM.App

open Discovery (ConnectionInfo MonitorInfo)
open Input

/-- The position that a message brings the Slave. -/
def Effect.position? : Effect → Option Point
  | .sendInput msgType payload =>
      if msgType = kMsgMouseAbsolute then
        (decodeMouseAbsolute payload).map fun (x, y) => ⟨x.toInt, y.toInt⟩
      else none
  | _ => none

/-- The position where the local cursor resumes. -/
def Effect.resumed? : Effect → Option Point
  | .setCursorPos x y => some ⟨x, y⟩
  | _ => none

/-- Positions sent are in the box of the Slave's screens, those resumed at in
Master's. -/
def OnScreen (m s : ClusterBounds) (effects : List Effect) : Prop :=
  (∀ p ∈ effects.filterMap Effect.position?, s.Contains p) ∧
    ∀ p ∈ effects.filterMap Effect.resumed?, m.Contains p

section Rules

variable {m s : ClusterBounds}

@[simp] theorem onScreen_nil : OnScreen m s [] := ⟨nofun, nofun⟩

/-- Two lists of effects are on screen if both of them are. -/
theorem OnScreen.append {as bs : List Effect} (hAs : OnScreen m s as) (hBs : OnScreen m s bs) :
    OnScreen m s (as ++ bs) := by
  unfold OnScreen
  rw [List.filterMap_append, List.filterMap_append]
  exact ⟨List.forall_mem_append.mpr ⟨hAs.1, hBs.1⟩, List.forall_mem_append.mpr ⟨hAs.2, hBs.2⟩⟩

/-- Effects of other kinds say nothing about the pointer. -/
theorem onScreen_of_none {effects : List Effect}
    (h : ∀ e ∈ effects, e.position? = none ∧ e.resumed? = none) : OnScreen m s effects := by
  have hPosition : effects.filterMap Effect.position? = [] :=
    List.filterMap_eq_nil_iff.mpr fun e hMem => (h e hMem).1
  have hResumed : effects.filterMap Effect.resumed? = [] :=
    List.filterMap_eq_nil_iff.mpr fun e hMem => (h e hMem).2
  rw [OnScreen, hPosition, hResumed]
  exact ⟨nofun, nofun⟩

/-- A local position has to be inside the screens of the Master. -/
theorem onScreen_setCursorPos {p : Point} (h : m.Contains p) : OnScreen m s [.setCursorPos p.x p.y] :=
  ⟨nofun, fun q hMem => by cases List.mem_singleton.mp hMem; exact h⟩

/-- Inside screens without an overflow a position arrives as it was sent. -/
theorem sendMouseAbsolute_position {p : Point} (hX : Fits p.x) (hY : Fits p.y) :
    (sendMouseAbsolute p.x p.y).position? = some p := by
  have hSentX : (Int32.ofInt p.x).toInt = p.x := Int32.toInt_ofInt_of_le hX.1 (Int.lt_add_one_of_le hX.2)
  have hSentY : (Int32.ofInt p.y).toInt = p.y := Int32.toInt_ofInt_of_le hY.1 (Int.lt_add_one_of_le hY.2)
  simp [sendMouseAbsolute, Effect.position?, hSentX, hSentY]

end Rules

/-- Screens with a box whose edges are numbers of the program. -/
def Sized (monitors : List MonitorInfo) : Prop :=
  (computeBounds monitors).Proper ∧ ∀ m ∈ monitors, Fits m.right ∧ Fits m.bottom

instance (monitors : List MonitorInfo) : Decidable (Sized monitors) :=
  inferInstanceAs (Decidable (_ ∧ _))

/-- A position past the edge `d` of the box `b` is no farther from it than the
box `c` reaches. -/
def Lands (b c : ClusterBounds) (d : Direction) (p : Point) : Prop :=
  b.Proper ∧ c.Proper ∧ b.past d p ≤ c.extent d

instance (b c : ClusterBounds) (d : Direction) (p : Point) : Decidable (Lands b c d p) :=
  inferInstanceAs (Decidable (_ ∧ _))

/-- A position inside the box survives its encoding, because the edges of the
box are numbers of the program. -/
theorem Sized.position {monitors : List MonitorInfo} (h : Sized monitors) {p : Point}
    (hInside : (computeBounds monitors).Contains p) : (sendMouseAbsolute p.x p.y).position? = some p := by
  obtain ⟨hProper, hEdges⟩ := h
  have hBox : IsBoundingBox monitors (computeBounds monitors) :=
    computeBounds_isBoundingBox (proper_ne_nil hProper) (fun mon hMem => (hEdges mon hMem).1.1)
      fun mon hMem => (hEdges mon hMem).2.1
  have hX : Fits (computeBounds monitors).minX ∧ Fits (computeBounds monitors).maxX := hBox.fits hEdges .up
  have hY : Fits (computeBounds monitors).minY ∧ Fits (computeBounds monitors).maxY := hBox.fits hEdges .left
  obtain ⟨⟨hLeft, hRight⟩, hTop, hBottom⟩ := hInside
  refine sendMouseAbsolute_position ?_ ?_
  · exact ⟨hX.1.1.trans hLeft, hRight.trans hX.2.2⟩
  · exact ⟨hY.1.1.trans hTop, hBottom.trans hY.2.2⟩

/-- So a message with such a position is on screen. -/
theorem Sized.onScreen {monitors : List MonitorInfo} (h : Sized monitors) (m : ClusterBounds) {p : Point}
    (hInside : (computeBounds monitors).Contains p) :
    OnScreen m (computeBounds monitors) [sendMouseAbsolute p.x p.y] := by
  unfold OnScreen
  rw [List.filterMap_cons_some (h.position hInside)]
  exact ⟨fun q hMem => List.mem_singleton.mp hMem ▸ hInside, nofun⟩

/-- A crossing lands on the screens when it is short enough. -/
theorem Lands.contains {b : ClusterBounds} {target : List MonitorInfo} {d : Direction} {p : Point}
    (h : Lands b (computeBounds target) d p) (hReports : Reports b p d) (offset : Int) :
    let bc := checkBoundary b p.x p.y
    (computeBounds target).Contains (carryOvershoot (computeCrossing target d offset bc.perpPos) d.horizontal
      (d.along p - d.along ⟨bc.clampedX, bc.clampedY⟩)) := by
  intro bc
  obtain ⟨hB, hC, hShort⟩ := h
  have hPast := past_of_reports hReports
  obtain ⟨hCrossed, rfl⟩ := hReports
  obtain ⟨hAlong, hAcross⟩ := crossing_axes hB p.x p.y hCrossed (proper_ne_nil hC) offset
  exact contains_of_entry hPast hShort hAlong (covers_of_across hC hAcross)

section Handlers

variable {state : AppState} {info : ConnectionInfo} {mask : UInt8} {frame : InputFrame}

/-- If Master's handler hands over, it does so onto the Slave's screens. -/
def LandsOnSlave (state : AppState) (info : ConnectionInfo) (frame : InputFrame) : Prop :=
  let m := computeBounds state.localMonitors
  let p := state.reached frame
  ∀ entry ∈ state.screenArrangement info.peerDeviceId,
    state.inputJustHandedOff = false → info.peerMonitors ≠ [] → Reports m p entry.direction →
      Sized info.peerMonitors ∧ Lands m (computeBounds info.peerMonitors) entry.direction p

/-- The Slave's screens have a box, and if the Slave's handler gives back, it
does so onto Master's. -/
def LandsOnMaster (state : AppState) (info : ConnectionInfo) (frame : InputFrame) : Prop :=
  let s := computeBounds info.peerMonitors
  let p := state.reached frame
  Sized info.peerMonitors ∧
    ∀ entry ∈ state.screenArrangement info.peerDeviceId,
      state.inputJustHandedOff = false → state.localMonitors ≠ [] → Reports s p (opposite entry.direction) →
        pastMargin (checkBoundary s p.x p.y) p.x p.y = true →
          Lands s (computeBounds state.localMonitors) (opposite entry.direction) p

instance : Decidable (LandsOnSlave state info frame) :=
  inferInstanceAs (Decidable (∀ entry ∈ state.screenArrangement info.peerDeviceId, _ → _ → _ → _))

instance : Decidable (LandsOnMaster state info frame) :=
  inferInstanceAs (Decidable (_ ∧ ∀ entry ∈ state.screenArrangement info.peerDeviceId, _ → _ → _ → _ → _))

/-- Keys have no position. -/
theorem releaseHeldKeysLocally_onScreen (m s : ClusterBounds) (held : List HeldKey) :
    OnScreen m s (releaseHeldKeysLocally held) := by
  refine onScreen_of_none fun e hMem => ?_
  obtain ⟨k, -, rfl⟩ := List.mem_map.mp hMem
  exact ⟨rfl, rfl⟩

theorem releaseHeldKeysOnSlave_onScreen (m s : ClusterBounds) (held : List HeldKey) :
    OnScreen m s (releaseHeldKeysOnSlave held) := by
  refine OnScreen.append (onScreen_of_none fun e hMem => ?_) (onScreen_of_none fun e hMem => ?_)
  · obtain ⟨k, -, rfl⟩ := List.mem_map.mp hMem
    exact ⟨rfl, rfl⟩
  · cases List.mem_singleton.mp hMem
    exact ⟨rfl, rfl⟩

/-- A frame that is forwarded has its position inside the box of the Slave. -/
theorem forwardFrame_onScreen (hSized : Sized info.peerMonitors) (m : ClusterBounds) (x y : Int) (frame : InputFrame) :
    OnScreen m (computeBounds info.peerMonitors) (forwardFrame (checkBoundary (computeBounds info.peerMonitors) x y) frame) := by
  have hMove := hSized.onScreen m (contains_clamped hSized.1 x y)
  have hButtons : OnScreen m (computeBounds info.peerMonitors) (frame.buttons.map sendMouseButton) := by
    refine onScreen_of_none fun e hMem => ?_
    obtain ⟨b, -, rfl⟩ := List.mem_map.mp hMem
    exact ⟨rfl, rfl⟩
  have hWheel : OnScreen m (computeBounds info.peerMonitors) (frame.wheelDeltas.map sendMouseWheel) := by
    refine onScreen_of_none fun e hMem => ?_
    obtain ⟨delta, -, rfl⟩ := List.mem_map.mp hMem
    exact ⟨rfl, rfl⟩
  have hKeys : OnScreen m (computeBounds info.peerMonitors) (frame.keys.map sendKey) := by
    refine onScreen_of_none fun e hMem => ?_
    obtain ⟨k, -, rfl⟩ := List.mem_map.mp hMem
    exact ⟨rfl, rfl⟩
  exact ((hMove.append hButtons).append hWheel).append hKeys

theorem handleMasterOwned_onScreen (h : LandsOnSlave state info frame) :
    OnScreen (computeBounds state.localMonitors) (computeBounds info.peerMonitors)
      (handleMasterOwned state info mask frame).2 := by
  unfold handleMasterOwned
  simp only
  split
  case h_2 => exact onScreen_nil
  case h_1 p hCrossing =>
    have hJust := (outboundCrossing_isSome.mp (Option.isSome_of_eq_some hCrossing)).1
    obtain ⟨entry, hEntry, hCrossed, hDirection, hMonitors, rfl⟩ := outboundCrossing_eq_some hCrossing
    obtain ⟨hSized, hLands⟩ := h entry hEntry hJust hMonitors ⟨hCrossed, hDirection.symm⟩
    have hInside := hLands.contains ⟨hCrossed, hDirection.symm⟩ entry.offset
    refine OnScreen.append ?_ (releaseHeldKeysLocally_onScreen _ _ _)
    exact (hSized.onScreen _ hInside).append (onScreen_of_none fun e hMem => by
      cases List.mem_singleton.mp hMem
      exact ⟨rfl, rfl⟩)

theorem handleSlaveOwned_onScreen (h : LandsOnMaster state info frame) :
    OnScreen (computeBounds state.localMonitors) (computeBounds info.peerMonitors)
      (handleSlaveOwned state info frame).2 := by
  obtain ⟨hSized, hLands⟩ := h
  unfold handleSlaveOwned
  simp only
  split
  case h_1 => exact forwardFrame_onScreen hSized _ _ _ frame
  case h_2 inv hEdge =>
    split
    case h_1 => exact forwardFrame_onScreen hSized _ _ _ frame
    case h_2 p hCrossing =>
      obtain ⟨entry, hEntry, hCrossed, hDirection, rfl⟩ := crossableEdge_eq_some hEdge
      obtain ⟨hMaster, hPoint⟩ := returnCrossing_eq_some hCrossing
      obtain ⟨hJust, hMargin⟩ := (returnCrossing_isSome hMaster).mp (Option.isSome_of_eq_some hCrossing)
      have hShort := hLands entry hEntry hJust hMaster ⟨hCrossed, hDirection⟩ hMargin
      have hInside := hShort.contains ⟨hCrossed, hDirection⟩
        (invertEntry entry (computeBounds state.localMonitors) (computeBounds info.peerMonitors)).offset
      refine OnScreen.append (OnScreen.append (forwardFrame_onScreen hSized _ _ _ frame)
        (releaseHeldKeysOnSlave_onScreen _ _ _)) (onScreen_setCursorPos ?_)
      rw [hPoint, hDirection]
      exact hInside

end Handlers

/-- The frame crosses no farther than the screens reach. Screens that the pump
does not work with in this frame do not matter. -/
def AppState.LandsInside (state : AppState) (f : Frame) : Prop :=
  let polled := (pollFrame (state.ready f)).2
  let frame := (pollFrame (state.ready f)).1
  if polled.inputOwnedByMaster then LandsOnSlave polled f.env.status frame
  else if escapeComboHeld polled.inputHeldKeys then (computeBounds polled.localMonitors).Proper
  else LandsOnMaster polled f.env.status frame

instance (state : AppState) (f : Frame) : Decidable (state.LandsInside f) :=
  inferInstanceAs (Decidable (if (pollFrame (state.ready f)).2.inputOwnedByMaster then _ else
    if escapeComboHeld (pollFrame (state.ready f)).2.inputHeldKeys then _ else _))

/-- The middle of two numbers lies between them. -/
theorem tdiv_two_mem {lo hi : Int} (h : lo ≤ hi) : lo ≤ (lo + hi).tdiv 2 ∧ (lo + hi).tdiv 2 ≤ hi := by
  rw [Int.tdiv_eq_ediv, show Int.sign 2 = 1 from rfl]
  split <;> omega

/-- So the centre of a box lies inside it. -/
theorem contains_centre {b : ClusterBounds} (hProper : b.Proper) : b.Contains (centre b) :=
  ⟨tdiv_two_mem hProper.1, tdiv_two_mem hProper.2⟩

/-- The local cursor resumes at the centre of the Master's screens. -/
theorem resumeInterior_onScreen {state : AppState} (hProper : (computeBounds state.localMonitors).Proper)
    (s : ClusterBounds) : OnScreen (computeBounds state.localMonitors) s (resumeInterior state).2 :=
  OnScreen.append (onScreen_setCursorPos (contains_centre hProper)) (releaseHeldKeysOnSlave_onScreen _ _ _)

/-- After every run, a frame with screens on the Slave whose crossing lands
inside sends and resumes at positions on the screens only. -/
theorem positions_on_screen (localMonitors : List MonitorInfo) (arrangement : UInt64 → Option ArrangementEntry)
    (lastRole : Option Role) (frames : List Frame) (f : Frame) :
    let state := frames.foldl AppState.frame (.start localMonitors arrangement lastRole)
    f.env.status.peerMonitors ≠ [] → (Live state f → state.LandsInside f) →
      OnScreen (computeBounds state.localMonitors) (computeBounds f.env.status.peerMonitors)
        (pumpInput (state.before f) f.env).2 := by
  intro state hMonitors hLands
  by_cases hLive : Live state f
  · specialize hLands hLive
    unfold AppState.LandsInside at hLands
    have hLocal : (pollFrame (state.ready f)).2.localMonitors = state.localMonitors := ready_localMonitors state f
    rw [pumpInput_live hLive]
    cases hOwned : (state.ready f).inputOwnedByMaster with
    | true =>
        have hPolled : (pollFrame (state.ready f)).2.inputOwnedByMaster = true := hOwned
        simp only [hPolled, if_true] at hLands
        rw [pumpConnected_master _ _ hOwned, ← hLocal]
        exact handleMasterOwned_onScreen hLands
    | false =>
        have hPolled : (pollFrame (state.ready f)).2.inputOwnedByMaster = false := hOwned
        simp only [hPolled, Bool.false_eq_true, if_false] at hLands
        cases hEscape : escapeComboHeld (pollFrame (state.ready f)).2.inputHeldKeys with
        | true =>
            simp only [hEscape, if_true] at hLands
            rw [pumpConnected_escaped _ hOwned hMonitors hEscape, ← hLocal]
            exact (resumeInterior_onScreen hLands _).append (onScreen_of_none fun e hMem => by
              cases List.mem_singleton.mp hMem
              exact ⟨rfl, rfl⟩)
        | false =>
            simp only [hEscape, Bool.false_eq_true, if_false] at hLands
            rw [pumpConnected_slave _ hOwned hMonitors hEscape, ← hLocal]
            exact handleSlaveOwned_onScreen hLands
  · rw [pumpInput_idle hLive]
    exact onScreen_nil

open SideBySide

/-- All positions of a handoff to the Slave are on its screen. -/
theorem positions_on_screen_swipeOut :
    let state := [during []].foldl AppState.frame (.start [screen] (fun _ => some ⟨7, .right, 0⟩) (some .master))
    OnScreen (computeBounds state.localMonitors) (computeBounds swipeOut.env.status.peerMonitors)
      (pumpInput (state.before swipeOut) swipeOut.env).2 :=
  positions_on_screen [screen] (fun _ => some ⟨7, .right, 0⟩) (some .master) [during []] swipeOut (by decide)
    (by decide +kernel)

/-- Back to the left by 2000 pixels in one frame. -/
def longSwipe : Frame := during [.rawInput (-2000) 0]

/-- The pointer has been 10 pixels on the Slave, and resumes at
-70 on Master. -/
theorem swipe_off_screen :
    let state := [during [], swipeOut, during []].foldl AppState.frame
      (.start [screen] (fun _ => some ⟨7, .right, 0⟩) (some .master))
    (pumpInput (state.before longSwipe) longSwipe.env).2.filterMap Effect.resumed? = [⟨-70, 540⟩] ∧
      ¬ OnScreen (computeBounds state.localMonitors) (computeBounds longSwipe.env.status.peerMonitors)
        (pumpInput (state.before longSwipe) longSwipe.env).2 := by
  intro state
  have hResumed : (pumpInput (state.before longSwipe) longSwipe.env).2.filterMap Effect.resumed? = [⟨-70, 540⟩] := by
    decide +kernel
  refine ⟨hResumed, fun h => ?_⟩
  have hInside : (computeBounds state.localMonitors).Contains ⟨-70, 540⟩ :=
    h.2 _ (by rw [hResumed]; exact List.mem_singleton_self _)
  exact absurd hInside (by decide +kernel)

end NoCapKVM.App
