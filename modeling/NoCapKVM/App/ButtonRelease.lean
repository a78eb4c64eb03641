import NoCapKVM.App.KeyRelease

/-! Which mouse buttons a handoff leaves pressed on the machine that loses the input. -/
open NoCapKVM.Topology
namespace NoCapKVM.App

open Discovery (ConnectionInfo MonitorInfo)
open Input EventLog

/-- The last event of the button pressed it. -/
def ButtonDown (buttons : List MouseButtonEvent) (button : UInt8) : Prop :=
  Down MouseButtonEvent.button MouseButtonEvent.down buttons button

instance (buttons : List MouseButtonEvent) (button : UInt8) : Decidable (ButtonDown buttons button) :=
  inferInstanceAs (Decidable (Down _ _ _ _))

/-- The button events that the Slave has got when the frame takes the input
from it. Those of the frame are forwarded on a connection to displays, without
the hotkey. -/
def Desk.toldButtons (d : Desk) (f : Frame) : List MouseButtonEvent :=
  d.sent.filterMap Effect.button? ++
    if Live d.app f ∧ f.env.status.peerMonitors ≠ [] ∧
        escapeComboHeld ((d.pending f).keys.foldl trackKey d.app.inputHeldKeys) = false then
      (d.pending f).buttons
    else []

/-- The pump injects no button. -/
theorem Outcome.localButtons {state : AppState} {info : ConnectionInfo} {mask : UInt8}
    {r : AppState × List Effect} (h : Outcome state info mask r) :
    r.2.filterMap Effect.localButton? = [] := by
  have hSlave : ∀ held, (releaseHeldKeysOnSlave held).filterMap Effect.localButton? = [] := by
    intro held
    rw [releaseHeldKeysOnSlave, List.filterMap_append, filterMap_map_none _ _ fun _ => rfl]
    rfl
  have hForward : ∀ bc frame, (forwardFrame bc frame).filterMap Effect.localButton? = [] := by
    intro bc frame
    rw [forwardFrame, List.filterMap_append, List.filterMap_append, List.filterMap_cons_none rfl,
      filterMap_map_none _ _ fun _ => rfl, filterMap_map_none _ _ fun _ => rfl,
      filterMap_map_none _ _ fun _ => rfl]
    rfl
  cases h with
  | displaysLost => exact hSlave _
  | escaped =>
      show (releaseHeldKeysOnSlave _ ++ [Effect.disconnectCurrent]).filterMap Effect.localButton? = []
      rw [List.filterMap_append, hSlave]
      rfl
  | kept => rfl
  | crossed =>
      show (List.map _ _).filterMap Effect.localButton? = []
      exact filterMap_map_none _ _ (fun _ => rfl) _
  | forwarded => exact hForward _ _
  | returned =>
      simp only [List.filterMap_append, hForward, hSlave]
      rfl

theorem effects_localButtons (d : Desk) (f : Frame) : (d.effects f).filterMap Effect.localButton? = [] := by
  by_cases hLive : Live d.app f
  · exact (pumpInput_outcome hLive).localButtons
  · rw [effects_idle hLive]
    rfl

/-- When the Slave loses the input, it gets the buttons of the
frame at most. -/
theorem handback_buttons {d : Desk} {f : Frame} (hSound : Sound d.app)
    (hSlave : d.app.inputOwnedByMaster = false) (hMaster : (d.pumped f).app.inputOwnedByMaster = true) :
    (d.pumped f).sent.filterMap Effect.button? = d.toldButtons f := by
  have hActive := hSound.active_of_slave hSlave
  have hSent : (d.pumped f).sent = d.sent ++ d.effects f := by
    show (if d.app.inputHookActive then d.sent else []) ++ _ = _
    rw [if_pos hActive]
  rw [hSent, List.filterMap_append, Desk.toldButtons]
  congr 1
  by_cases hLive : Live d.app f
  · have hPoll := polled_held d f
    have hPumped : (pumpInput (d.app.before f) f.env).1.inputOwnedByMaster = true := hMaster
    have hOutcome := pumpInput_outcome hLive
    unfold Desk.effects
    generalize pumpInput (d.app.before f) f.env = r at hOutcome hPumped
    cases hOutcome with
    | displaysLost _ hMonitors =>
        rw [if_neg fun h => h.2.1 hMonitors]
        exact releaseHeldKeysOnSlave_buttons _
    | escaped _ _ hEscape =>
        rw [hPoll] at hEscape
        rw [if_neg fun h => Bool.noConfusion (hEscape.symm.trans h.2.2)]
        show (releaseHeldKeysOnSlave _ ++ [Effect.disconnectCurrent]).filterMap Effect.button? = []
        rw [List.filterMap_append, releaseHeldKeysOnSlave_buttons]
        rfl
    | kept hOwned =>
        rw [hSound.ready_owned, hSlave] at hOwned
        cases hOwned
    | crossed => cases hPumped
    | forwarded hOwned => exact absurd (hOwned.symm.trans hPumped) Bool.noConfusion
    | returned _ hMonitors hEscape =>
        rw [hPoll] at hEscape
        rw [if_pos ⟨hLive, hMonitors, hEscape⟩, List.filterMap_append, List.filterMap_append,
          forwardFrame_buttons, releaseHeldKeysOnSlave_buttons, polled_pending]
        simp [Effect.button?]
  · rw [effects_idle hLive, if_neg fun h => hLive h.1]
    rfl

/-- In every run, at every change of ownership: the machine that loses the
input ends the frame without a pressed button if and only if the events it was
given left no button down. The pump releases none. -/
theorem handoff_releases_buttons (localMonitors : List MonitorInfo)
    (arrangement : UInt64 → Option ArrangementEntry) (lastRole : Option Role) (frames : List Frame) (f : Frame) :
    let d := frames.foldl Desk.frame (.start localMonitors arrangement lastRole)
    (d.app.inputOwnedByMaster = true → (d.pumped f).app.inputOwnedByMaster = false →
      ((∀ b, ¬ ButtonDown (d.pumped f).localButtons b) ↔
        ∀ b, ¬ ButtonDown (d.localButtons ++ d.passedButtons f) b)) ∧
    (d.app.inputOwnedByMaster = false → (d.pumped f).app.inputOwnedByMaster = true →
      ((∀ b, ¬ ButtonDown ((d.pumped f).sent.filterMap Effect.button?) b) ↔
        ∀ b, ¬ ButtonDown (d.toldButtons f) b)) := by
  intro d
  constructor
  · intro _ _
    have hLocal : (d.pumped f).localButtons = d.localButtons ++ d.passedButtons f := by
      show _ ++ (d.effects f).filterMap Effect.localButton? = _
      rw [effects_localButtons, List.append_nil]
    rw [hLocal]
  · intro hSlave hMaster
    rw [handback_buttons (desk_sound localMonitors arrangement lastRole frames) hSlave hMaster]

open SideBySide in
/-- The left button goes down on the Slave, and the pointer
returns with it. -/
theorem handback_strands_button :
    let frames := [during [], swipeOut, during [.mouse .lButtonDown { x := 0, y := 0 }]]
    let d := frames.foldl Desk.frame desk
    d.app.inputOwnedByMaster = false ∧ (d.pumped swipeBack).app.inputOwnedByMaster = true ∧
      ButtonDown ((d.pumped swipeBack).sent.filterMap Effect.button?) 0 := by
  decide +kernel

end NoCapKVM.App
