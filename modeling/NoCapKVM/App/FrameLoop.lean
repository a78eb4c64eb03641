import NoCapKVM.App.InputPump

/-! The frames of `app/main.cpp` as the input pump sees them: the events that
Windows delivers, the pump, and then at most one click on the screen shown. -/
open NoCapKVM.Topology
namespace NoCapKVM.App

open Discovery (ConnectionInfo MonitorInfo)
open Input

/-- The state with another pointer position. -/
def AppState.moved (state : AppState) (p : Point) : AppState :=
  { state with inputLogicalX := p.x, inputLogicalY := p.y, inputJustHandedOff := false }

/-- The pointer goes over to the Slave. -/
def AppState.handedOver (state : AppState) (p : Point) : AppState :=
  { state with inputOwnedByMaster := false, inputLogicalX := p.x, inputLogicalY := p.y,
               inputJustHandedOff := true, inputHook := state.inputHook.suppressed }

/-- The pointer comes back to Master. -/
def AppState.handedBack (state : AppState) (p : Point) : AppState :=
  { state with inputOwnedByMaster := true, inputLogicalX := p.x, inputLogicalY := p.y,
               inputJustHandedOff := true, inputHook := state.inputHook.resumeAt p.x p.y }

/-- Where the polled frame moves the pointer on the Slave's screens. -/
def slaveBoundary (state : AppState) (info : ConnectionInfo) : BoundaryCheck :=
  let frame := (pollFrame state).1
  checkBoundary (computeBounds info.peerMonitors) (state.inputLogicalX + frame.dx)
    (state.inputLogicalY + frame.dy)

/-- The outcomes of the pump on a connection, by what happens to the input. -/
inductive Outcome (state : AppState) (info : ConnectionInfo) (mask : UInt8) : AppState × List Effect → Prop where
  | displaysLost (hOwned : state.inputOwnedByMaster = false) (hMonitors : info.peerMonitors = []) (p : Point) :
      Outcome state info mask
        (state.handedBack p, .setCursorPos p.x p.y :: releaseHeldKeysOnSlave state.inputHeldKeys)
  | escaped (hOwned : state.inputOwnedByMaster = false) (hMonitors : info.peerMonitors ≠ [])
      (hEscape : escapeComboHeld (pollFrame state).2.inputHeldKeys = true) (p : Point) :
      Outcome state info mask ((pollFrame state).2.handedBack p,
        .setCursorPos p.x p.y :: releaseHeldKeysOnSlave (pollFrame state).2.inputHeldKeys ++ [.disconnectCurrent])
  | kept (hOwned : state.inputOwnedByMaster = true) (p : Point) :
      Outcome state info mask ((pollFrame state).2.moved p, [])
  | crossed (hOwned : state.inputOwnedByMaster = true) (hMonitors : info.peerMonitors ≠ []) (p : Point) :
      Outcome state info mask ((pollFrame state).2.handedOver p,
        [sendMouseAbsolute p.x p.y, sendModifierSyncMask mask] ++
          releaseHeldKeysLocally (pollFrame state).2.inputHeldKeys)
  | forwarded (hOwned : state.inputOwnedByMaster = false) (hMonitors : info.peerMonitors ≠ [])
      (hEscape : escapeComboHeld (pollFrame state).2.inputHeldKeys = false) (p : Point) :
      Outcome state info mask
        ((pollFrame state).2.moved p, forwardFrame (slaveBoundary state info) (pollFrame state).1)
  | returned (hOwned : state.inputOwnedByMaster = false) (hMonitors : info.peerMonitors ≠ [])
      (hEscape : escapeComboHeld (pollFrame state).2.inputHeldKeys = false) (p : Point) :
      Outcome state info mask ((pollFrame state).2.handedBack p,
        forwardFrame (slaveBoundary state info) (pollFrame state).1 ++ releaseHeldKeysOnSlave (pollFrame state).2.inputHeldKeys ++
          [.setCursorPos p.x p.y])

/-- A Slave without monitors is never crossed to. -/
theorem outboundCrossing_headless {state : AppState} {info : ConnectionInfo} (h : info.peerMonitors = [])
    (x y : Int) (bc : BoundaryCheck) : outboundCrossing state info x y bc = none := by
  unfold outboundCrossing
  cases state.screenArrangement info.peerDeviceId <;> simp [h]

/-- While the Master owns the input, its frame leaves the input there or hands
it over. -/
theorem handleMasterOwned_outcome {state : AppState} (info : ConnectionInfo) (mask : UInt8)
    (hOwned : state.inputOwnedByMaster = true) :
    Outcome state info mask (handleMasterOwned (pollFrame state).2 info mask (pollFrame state).1) := by
  unfold handleMasterOwned
  simp only
  split
  case h_1 p hCrossing =>
    refine .crossed hOwned (fun hMonitors => ?_) p
    rw [outboundCrossing_headless hMonitors] at hCrossing
    cases hCrossing
  case h_2 => exact .kept hOwned ⟨_, _⟩

/-- While the Slave owns it, the frame leaves it there or hands it back. -/
theorem handleSlaveOwned_outcome {state : AppState} {info : ConnectionInfo} (mask : UInt8)
    (hOwned : state.inputOwnedByMaster = false) (hMonitors : info.peerMonitors ≠ [])
    (hEscape : escapeComboHeld (pollFrame state).2.inputHeldKeys = false) :
    Outcome state info mask (handleSlaveOwned (pollFrame state).2 info (pollFrame state).1) := by
  unfold handleSlaveOwned
  simp only
  split
  case h_1 => exact .forwarded hOwned hMonitors hEscape ⟨_, _⟩
  case h_2 =>
    split
    case h_1 => exact .forwarded hOwned hMonitors hEscape ⟨_, _⟩
    case h_2 => exact .returned hOwned hMonitors hEscape _

/-- On a connection the pump handles the polled events as the Master's while
the Master owns the input. -/
theorem pumpConnected_master {state : AppState} (info : ConnectionInfo) (mask : UInt8)
    (hOwned : state.inputOwnedByMaster = true) :
    pumpConnected state info mask = handleMasterOwned (pollFrame state).2 info mask (pollFrame state).1 := by
  have hPolled : (pollFrame state).2.inputOwnedByMaster = true := hOwned
  simp only [pumpConnected, hPolled, hOwned, Bool.not_true, Bool.false_and, Bool.and_false, Bool.false_eq_true,
    if_false, if_true]

/-- A Slave that has lost its monitors loses the input. -/
theorem pumpConnected_headless {state : AppState} {info : ConnectionInfo} (mask : UInt8)
    (hOwned : state.inputOwnedByMaster = false) (hMonitors : info.peerMonitors = []) :
    pumpConnected state info mask = resumeInterior state := by
  simp only [pumpConnected, hOwned, hMonitors, Bool.not_false, List.isEmpty_nil, Bool.and_self, if_true]

/-- The escape combination takes the input back before anything else
is looked at. -/
theorem pumpConnected_escaped {state : AppState} {info : ConnectionInfo} (mask : UInt8)
    (hOwned : state.inputOwnedByMaster = false) (hMonitors : info.peerMonitors ≠ [])
    (hEscape : escapeComboHeld (pollFrame state).2.inputHeldKeys = true) :
    pumpConnected state info mask =
      ((resumeInterior (pollFrame state).2).1, (resumeInterior (pollFrame state).2).2 ++ [.disconnectCurrent]) := by
  have hPolled : (pollFrame state).2.inputOwnedByMaster = false := hOwned
  have hSome : info.peerMonitors.isEmpty = false := List.isEmpty_eq_false_iff.mpr hMonitors
  simp only [pumpConnected, hPolled, hOwned, hSome, hEscape, Bool.not_false, Bool.and_false, Bool.and_self,
    Bool.false_eq_true, if_false, if_true]

/-- Otherwise the polled events are the Slave's. -/
theorem pumpConnected_slave {state : AppState} {info : ConnectionInfo} (mask : UInt8)
    (hOwned : state.inputOwnedByMaster = false) (hMonitors : info.peerMonitors ≠ [])
    (hEscape : escapeComboHeld (pollFrame state).2.inputHeldKeys = false) :
    pumpConnected state info mask = handleSlaveOwned (pollFrame state).2 info (pollFrame state).1 := by
  have hPolled : (pollFrame state).2.inputOwnedByMaster = false := hOwned
  have hSome : info.peerMonitors.isEmpty = false := List.isEmpty_eq_false_iff.mpr hMonitors
  simp only [pumpConnected, hPolled, hOwned, hSome, hEscape, Bool.not_false, Bool.and_false, Bool.false_and,
    Bool.false_eq_true, if_false]

/-- So the pump has one of these outcomes in each of its four cases. -/
theorem pumpConnected_outcome (state : AppState) (info : ConnectionInfo) (mask : UInt8) :
    Outcome state info mask (pumpConnected state info mask) := by
  cases hOwned : state.inputOwnedByMaster with
  | true =>
      rw [pumpConnected_master info mask hOwned]
      exact handleMasterOwned_outcome info mask hOwned
  | false =>
      by_cases hMonitors : info.peerMonitors = []
      · rw [pumpConnected_headless mask hOwned hMonitors]
        exact .displaysLost hOwned hMonitors _
      · cases hEscape : escapeComboHeld (pollFrame state).2.inputHeldKeys with
        | true =>
            rw [pumpConnected_escaped mask hOwned hMonitors hEscape]
            exact .escaped hOwned hMonitors hEscape _
        | false =>
            rw [pumpConnected_slave mask hOwned hMonitors hEscape]
            exact handleSlaveOwned_outcome mask hOwned hMonitors hEscape

/-- A click. Those that the input pump does not depend on are
not told apart. -/
inductive UiAction where
  | chooseRole (role : Role)
  | manageDevices
  | arrangeScreens
  | back
  | arrange (deviceId : UInt64) (entry : Option ArrangementEntry)
  | other

def startDiscovery (state : AppState) (role : Role) : AppState :=
  { state with role := role, tcpServer := state.tcpServer || role = .master, screen := .discovery }

/-- A click takes effect on the screens that show its button. -/
def draw (state : AppState) : UiAction → AppState
  | .chooseRole role => if state.screen = .roleSelect then startDiscovery state role else state
  | .manageDevices =>
      if state.screen = .roleSelect ∨ state.screen = .discovery then
        { state with previousScreen := state.screen, screen := .manageDevices }
      else state
  | .arrangeScreens =>
      if state.screen = .discovery ∧ state.role = .master then
        { state with previousScreen := .discovery, screen := .arrangement }
      else state
  | .back =>
      match state.screen with
      | .roleSelect => state
      | .discovery => { state with tcpServer := false, screen := .roleSelect }
      | .manageDevices | .arrangement => { state with screen := state.previousScreen }
  | .arrange deviceId entry =>
      if state.screen = .arrangement then
        { state with
            screenArrangement := fun d => if d = deviceId then entry else state.screenArrangement d }
      else state
  | .other => state

/-- No click touches the hook or the keys that are held. -/
theorem draw_hook (state : AppState) (a : UiAction) :
    (draw state a).inputHeldKeys = state.inputHeldKeys ∧
      (draw state a).inputHookActive = state.inputHookActive := by
  cases a with
  | other => exact ⟨rfl, rfl⟩
  | _ =>
      unfold draw
      simp only
      split <;> exact ⟨rfl, rfl⟩

structure Frame where
  events : List HookEvent := []
  env : Surroundings
  action : UiAction := .other

/-- The state when the pump of the frame is called. -/
def AppState.before (state : AppState) (f : Frame) : AppState :=
  { state with inputHook := state.inputHook.capture f.events }

/-- The state when the pump of the frame returns. -/
def AppState.pumped (state : AppState) (f : Frame) : AppState :=
  (pumpInput (state.before f) f.env).1

def AppState.frame (state : AppState) (f : Frame) : AppState :=
  draw (state.pumped f) f.action

/-- What is drawn after the pump leaves the held keys alone. -/
theorem frame_heldKeys (state : AppState) (f : Frame) :
    (state.frame f).inputHeldKeys = (state.pumped f).inputHeldKeys :=
  (draw_hook _ f.action).1

/-- The program starts on the role screen, or in the role of the last time. -/
def AppState.start (localMonitors : List MonitorInfo) (arrangement : UInt64 → Option ArrangementEntry)
    (lastRole : Option Role) : AppState :=
  let state : AppState := { localMonitors := localMonitors, screenArrangement := arrangement }
  match lastRole with
  | some role => startDiscovery state role
  | none => state

/-- Holds whenever the pump has returned: events are suppressed just while the
Slave owns the input, which takes an active hook, a Master and a server. -/
structure Settled (state : AppState) : Prop where
  suppress : state.inputHook.suppress = !state.inputOwnedByMaster
  inactive : state.inputHookActive = false → state.inputOwnedByMaster = true ∧ state.inputHeldKeys = []
  active : state.inputHookActive = true → state.role = .master
  server : state.inputHookActive = true → state.tcpServer = true

/-- Nothing leads to the role screen while there is a server. -/
def Homeless (state : AppState) : Prop :=
  (state.screen = .roleSelect ∨ state.screen ≠ .discovery ∧ state.previousScreen = .roleSelect) →
    state.tcpServer = false

/-- Holds before each frame. -/
structure Sound (state : AppState) : Prop where
  suppress : state.inputHook.suppress = !state.inputOwnedByMaster
  inactive : state.inputHookActive = false → state.inputOwnedByMaster = true ∧ state.inputHeldKeys = []
  active : state.inputHookActive = true → state.role = .master
  homeless : Homeless state

/-- The Slave owns the input only while the hook is active. -/
theorem Sound.active_of_slave {state : AppState} (h : Sound state) (hSlave : state.inputOwnedByMaster = false) :
    state.inputHookActive = true := by
  cases hActive : state.inputHookActive with
  | true => rfl
  | false => exact absurd ((h.inactive hActive).1.symm.trans hSlave) Bool.noConfusion

/-- The parts of the state that the pump leaves alone. -/
structure Untouched (state state' : AppState) : Prop where
  screen : state'.screen = state.screen
  previousScreen : state'.previousScreen = state.previousScreen
  role : state'.role = state.role
  tcpServer : state'.tcpServer = state.tcpServer

/-- Whatever the outcome, the pump leaves these parts of the state alone, and
the hook is as active as before. -/
theorem Outcome.untouched {state : AppState} {info : ConnectionInfo} {mask : UInt8} {r : AppState × List Effect}
    (h : Outcome state info mask r) :
    Untouched state r.1 ∧ r.1.inputHookActive = state.inputHookActive := by
  cases h <;> exact ⟨⟨rfl, rfl, rfl, rfl⟩, rfl⟩

/-- Each outcome changes ownership and suppression together. -/
theorem Outcome.suppress {state : AppState} {info : ConnectionInfo} {mask : UInt8} {r : AppState × List Effect}
    (h : Outcome state info mask r) (hState : state.inputHook.suppress = !state.inputOwnedByMaster) :
    r.1.inputHook.suppress = !r.1.inputOwnedByMaster := by
  cases h with
  | displaysLost => rfl
  | escaped => rfl
  | kept => exact hState
  | crossed => rfl
  | forwarded => exact hState
  | returned => rfl

/-- Without displays on the Slave the input ends up with Master. -/
theorem Outcome.headless {state : AppState} {info : ConnectionInfo} {mask : UInt8} {r : AppState × List Effect}
    (h : Outcome state info mask r) (hMonitors : info.peerMonitors = []) : r.1.inputOwnedByMaster = true := by
  cases h with
  | displaysLost => rfl
  | escaped => rfl
  | kept hOwned => exact hOwned
  | crossed _ hSome => exact absurd hMonitors hSome
  | forwarded _ hSome => exact absurd hMonitors hSome
  | returned => rfl

/-- After a poll no outcome changes the held keys. -/
theorem Outcome.heldKeys {state : AppState} {info : ConnectionInfo} {mask : UInt8} {r : AppState × List Effect}
    (h : Outcome state info mask r) (hPolls : state.inputOwnedByMaster = true ∨ info.peerMonitors ≠ []) :
    r.1.inputHeldKeys = (pollFrame state).2.inputHeldKeys := by
  cases h with
  | displaysLost hOwned hMonitors =>
      rcases hPolls with hMaster | hSome
      · exact Bool.noConfusion (hOwned.symm.trans hMaster)
      · exact absurd hMonitors hSome
  | _ => rfl

/-- Where no events are polled, no key is noted as held or released. -/
theorem Outcome.heldKeys_unpolled {state : AppState} {info : ConnectionInfo} {mask : UInt8}
    {r : AppState × List Effect} (h : Outcome state info mask r)
    (hNot : ¬ (state.inputOwnedByMaster = true ∨ info.peerMonitors ≠ [])) :
    r.1.inputHeldKeys = state.inputHeldKeys := by
  cases h with
  | displaysLost => rfl
  | kept hOwned => exact absurd (.inl hOwned) hNot
  | crossed hOwned => exact absurd (.inl hOwned) hNot
  | escaped _ hMonitors => exact absurd (.inr hMonitors) hNot
  | forwarded _ hMonitors => exact absurd (.inr hMonitors) hNot
  | returned _ hMonitors => exact absurd (.inr hMonitors) hNot

/-- A frame on a connection: Master, with a server whose status
is Connected. -/
def Live (state : AppState) (f : Frame) : Prop :=
  state.role = .master ∧ state.tcpServer = true ∧ f.env.status.state = .connected

instance (state : AppState) (f : Frame) : Decidable (Live state f) :=
  inferInstanceAs (Decidable (_ ∧ _))

/-- The state of a live frame once the hook is active. -/
def AppState.ready (state : AppState) (f : Frame) : AppState :=
  if state.inputHookActive then state.before f else activateHook (state.before f) f.env

theorem ready_localMonitors (state : AppState) (f : Frame) : (state.ready f).localMonitors = state.localMonitors := by
  unfold AppState.ready
  split <;> rfl

theorem ready_arrangement (state : AppState) (f : Frame) :
    (state.ready f).screenArrangement = state.screenArrangement := by
  unfold AppState.ready
  split <;> rfl

theorem ready_heldKeys (state : AppState) (f : Frame) : (state.ready f).inputHeldKeys = state.inputHeldKeys := by
  unfold AppState.ready
  split <;> rfl

theorem ready_pending (state : AppState) (f : Frame) :
    (state.ready f).inputHook.pending = (state.inputHook.capture f.events).pending := by
  unfold AppState.ready
  split
  · rfl
  · exact InputHook.install_pending _ _ _ _

/-- On a live connection, the pump comes down to the part that is about
connections. -/
theorem pumpInput_live {state : AppState} {f : Frame} (h : Live state f) :
    pumpInput (state.before f) f.env =
      pumpConnected (state.ready f) f.env.status f.env.currentModifierMask := by
  obtain ⟨hRole, hServer, hConnected⟩ := h
  have hMaster : (state.before f).role = .master := hRole
  have hHas : (state.before f).tcpServer = true := hServer
  have hActive : (state.before f).inputHookActive = state.inputHookActive := rfl
  simp only [pumpInput, AppState.ready, hMaster, hHas, hConnected, hActive, ne_eq, not_true_eq_false,
    if_false, Bool.not_true, decide_false, Bool.or_self, Bool.false_eq_true]

/-- So it has one of the outcomes above. -/
theorem pumpInput_outcome {state : AppState} {f : Frame} (h : Live state f) :
    Outcome (state.ready f) f.env.status f.env.currentModifierMask (pumpInput (state.before f) f.env) := by
  rw [pumpInput_live h]
  exact pumpConnected_outcome _ _ _

/-- Without one it takes the hook down, if it was up, and does
nothing else. -/
theorem pumpInput_idle {state : AppState} {f : Frame} (h : ¬ Live state f) :
    pumpInput (state.before f) f.env =
      (if state.role = .master ∧ state.inputHookActive = true then deactivateHook (state.before f)
        else state.before f, []) := by
  unfold Live at h
  have hRole : (state.before f).role = state.role := rfl
  have hServer : (state.before f).tcpServer = state.tcpServer := rfl
  have hActive : (state.before f).inputHookActive = state.inputHookActive := rfl
  simp only [pumpInput, hRole, hServer, hActive]
  by_cases hMaster : state.role = .master
  · have hOther : (!state.tcpServer || decide (f.env.status.state ≠ .connected)) = true := by
      cases hHas : state.tcpServer with
      | false => rfl
      | true => simpa using fun hConnected => h ⟨hMaster, hHas, hConnected⟩
    simp only [hMaster, hOther, ne_eq, not_true_eq_false, if_false, if_true, true_and]
  · simp [hMaster]

/-- When the pump is about to handle a frame, the hook is active and
suppresses events just while the Slave owns the input. -/
theorem Sound.ready {state : AppState} (h : Sound state) (f : Frame) :
    (state.ready f).inputHook.suppress = !(state.ready f).inputOwnedByMaster ∧
      (state.ready f).inputHookActive = true ∧ Untouched state (state.ready f) := by
  unfold AppState.ready
  cases hActive : state.inputHookActive with
  | true => exact ⟨(capture_suppress _ _).trans h.suppress, hActive, rfl, rfl, rfl, rfl⟩
  | false =>
      refine ⟨?_, rfl, rfl, rfl, rfl, rfl⟩
      show ((state.before f).inputHook.install _ _ _).1.suppress = false
      rw [InputHook.install_suppress]
      calc (state.inputHook.capture f.events).suppress
          = state.inputHook.suppress := capture_suppress _ _
        _ = false := by rw [h.suppress, (h.inactive hActive).1]; rfl

/-- Getting ready for a frame does not change the owner. -/
theorem Sound.ready_owned {state : AppState} (h : Sound state) (f : Frame) :
    (state.ready f).inputOwnedByMaster = state.inputOwnedByMaster := by
  unfold AppState.ready
  cases hActive : state.inputHookActive with
  | true => rfl
  | false => exact (h.inactive hActive).1.symm

/-- One call of the pump settles the state, and Master owns the input unless
the frame is live and the Slave has displays. -/
theorem Sound.pumped {state : AppState} (h : Sound state) (f : Frame) :
    Settled (state.pumped f) ∧ Untouched state (state.pumped f) ∧
      (¬ Live state f ∨ f.env.status.peerMonitors = [] → (state.pumped f).inputOwnedByMaster = true) := by
  unfold AppState.pumped
  by_cases hLive : Live state f
  · have hOutcome := pumpInput_outcome hLive
    obtain ⟨hSuppress, hActive, hSame⟩ := h.ready f
    obtain ⟨hUntouched, hStays⟩ := hOutcome.untouched
    have hTrue := hStays.trans hActive
    refine ⟨⟨hOutcome.suppress hSuppress, fun hFalse => ?_, fun _ => ?_, fun _ => ?_⟩, ?_, ?_⟩
    · rw [hTrue] at hFalse
      cases hFalse
    · exact (hUntouched.role.trans hSame.role).trans hLive.1
    · exact (hUntouched.tcpServer.trans hSame.tcpServer).trans hLive.2.1
    · exact ⟨hUntouched.screen.trans hSame.screen, hUntouched.previousScreen.trans hSame.previousScreen,
        hUntouched.role.trans hSame.role, hUntouched.tcpServer.trans hSame.tcpServer⟩
    · rintro (hNot | hMonitors)
      · exact absurd hLive hNot
      · exact hOutcome.headless hMonitors
  · rw [pumpInput_idle hLive]
    cases hActive : state.inputHookActive with
    | true =>
        rw [if_pos ⟨h.active hActive, rfl⟩]
        exact ⟨⟨rfl, fun _ => ⟨rfl, rfl⟩, nofun, nofun⟩, ⟨rfl, rfl, rfl, rfl⟩, fun _ => rfl⟩
    | false =>
        rw [if_neg fun hBoth => Bool.noConfusion hBoth.2]
        have hNo : ¬ (state.before f).inputHookActive = true := by
          rw [show (state.before f).inputHookActive = false from hActive]
          exact Bool.false_ne_true
        exact ⟨⟨(capture_suppress _ _).trans h.suppress, fun _ => h.inactive hActive,
          fun hYes => absurd hYes hNo, fun hYes => absurd hYes hNo⟩, ⟨rfl, rfl, rfl, rfl⟩,
          fun _ => (h.inactive hActive).1⟩

/-- A click keeps what holds before each frame. The role changes only
on the role screen, where there is no server, so that the pump has let
the hook go. -/
theorem Settled.draw {state : AppState} (h : Settled state) (hHome : Homeless state) (a : UiAction) :
    Sound (draw state a) := by
  have hSame : Sound state := ⟨h.suppress, h.inactive, h.active, hHome⟩
  cases a with
  | other => exact hSame
  | chooseRole role =>
      unfold App.draw
      simp only
      split
      case isFalse => exact hSame
      case isTrue hScreen =>
        refine ⟨h.suppress, h.inactive, fun hActive => ?_, fun hScreens => ?_⟩
        · have hServer := h.server hActive
          rw [hHome (.inl hScreen)] at hServer
          cases hServer
        · rcases hScreens with hRole | ⟨hNot, -⟩
          · cases hRole
          · exact absurd rfl hNot
  | manageDevices =>
      unfold App.draw
      simp only
      split
      case isFalse => exact hSame
      case isTrue hScreen =>
        refine ⟨h.suppress, h.inactive, h.active, fun hScreens => ?_⟩
        rcases hScreens with hRole | ⟨-, hPrevious⟩
        · cases hRole
        · exact hHome (.inl hPrevious)
  | arrangeScreens =>
      unfold App.draw
      simp only
      split
      case isFalse => exact hSame
      case isTrue =>
        refine ⟨h.suppress, h.inactive, h.active, fun hScreens => ?_⟩
        rcases hScreens with hRole | ⟨-, hPrevious⟩ <;> cases ‹_›
  | back =>
      unfold App.draw
      simp only
      split
      case h_1 => exact hSame
      case h_2 => exact ⟨h.suppress, h.inactive, h.active, fun _ => rfl⟩
      all_goals
        rename_i hScreen
        refine ⟨h.suppress, h.inactive, h.active, fun hScreens => hHome (.inr ⟨by simp [hScreen], ?_⟩)⟩
        rcases hScreens with hRole | ⟨-, hPrevious⟩
        · exact hRole
        · exact hPrevious
  | arrange deviceId entry =>
      unfold App.draw
      simp only
      split
      case isFalse => exact hSame
      case isTrue => exact ⟨h.suppress, h.inactive, h.active, hHome⟩

/-- A frame keeps the state sound: the ownership, the hook and the screens fit
together. -/
theorem Sound.frame {state : AppState} (h : Sound state) (f : Frame) : Sound (state.frame f) := by
  obtain ⟨hSettled, hUntouched, -⟩ := h.pumped f
  refine hSettled.draw (fun hScreens => ?_) f.action
  rw [hUntouched.screen, hUntouched.previousScreen] at hScreens
  exact hUntouched.tcpServer.trans (h.homeless hScreens)

/-- A frame leaves the hook active just when it is live. -/
theorem Sound.frame_active {state : AppState} (h : Sound state) (f : Frame) :
    (state.frame f).inputHookActive = true ↔ Live state f := by
  have hDraw : (state.frame f).inputHookActive = (state.pumped f).inputHookActive := (draw_hook _ f.action).2
  rw [hDraw, AppState.pumped]
  by_cases hLive : Live state f
  · exact iff_of_true ((pumpInput_outcome hLive).untouched.2.trans (h.ready f).2.1) hLive
  · refine iff_of_false ?_ hLive
    rw [pumpInput_idle hLive]
    cases hActive : state.inputHookActive with
    | true =>
        rw [if_pos ⟨h.active hActive, rfl⟩]
        exact Bool.false_ne_true
    | false =>
        rw [if_neg fun hBoth => Bool.noConfusion hBoth.2]
        show ¬ state.inputHookActive = true
        rw [hActive]
        exact Bool.false_ne_true

/-- The program starts in such a state, on whatever screen. -/
theorem sound_start (localMonitors : List MonitorInfo) (arrangement : UInt64 → Option ArrangementEntry)
    (lastRole : Option Role) : Sound (AppState.start localMonitors arrangement lastRole) := by
  cases lastRole with
  | none => exact ⟨rfl, fun _ => ⟨rfl, rfl⟩, nofun, fun _ => rfl⟩
  | some role =>
      refine ⟨rfl, fun _ => ⟨rfl, rfl⟩, nofun, fun hScreens => ?_⟩
      rcases hScreens with hRole | ⟨hNot, -⟩
      · cases hRole
      · exact absurd rfl hNot

/-- So it is before every frame of every run. -/
theorem sound_run (localMonitors : List MonitorInfo) (arrangement : UInt64 → Option ArrangementEntry)
    (lastRole : Option Role) (frames : List Frame) :
    Sound (frames.foldl AppState.frame (AppState.start localMonitors arrangement lastRole)) :=
  List.foldlRecOn frames AppState.frame (sound_start localMonitors arrangement lastRole)
    fun _ h f _ => h.frame f

/-- In every run the hook suppresses exactly while the Slave owns the input,
each time the pump returns. If there is no live connection to a Slave with
displays, Master owns the input and nothing is suppressed. -/
theorem suppression_follows_ownership (localMonitors : List MonitorInfo)
    (arrangement : UInt64 → Option ArrangementEntry) (lastRole : Option Role) (frames : List Frame) (f : Frame) :
    let state := frames.foldl AppState.frame (AppState.start localMonitors arrangement lastRole)
    let state' := state.pumped f
    (state'.inputHook.suppress = true ↔ state'.inputOwnedByMaster = false) ∧
      (state'.role ≠ .master ∨ state'.tcpServer = false ∨ f.env.status.state ≠ .connected ∨
          f.env.status.peerMonitors = [] →
        state'.inputOwnedByMaster = true ∧ state'.inputHook.suppress = false) := by
  intro state state'
  obtain ⟨hSettled, hUntouched, hIdle⟩ := (sound_run localMonitors arrangement lastRole frames).pumped f
  refine ⟨by rw [hSettled.suppress, Bool.not_eq_true'], fun h => ?_⟩
  have hOwned : state'.inputOwnedByMaster = true := by
    refine hIdle ?_
    rcases h with hRole | hServer | hConnected | hMonitors
    · exact .inl fun hLive => hRole (hUntouched.role.trans hLive.1)
    · exact .inl fun hLive => absurd (hUntouched.tcpServer.trans hLive.2.1) (by rw [hServer]; exact nofun)
    · exact .inl fun hLive => hConnected hLive.2.2
    · exact .inr hMonitors
  exact ⟨hOwned, by rw [hSettled.suppress, hOwned]; rfl⟩

end NoCapKVM.App
