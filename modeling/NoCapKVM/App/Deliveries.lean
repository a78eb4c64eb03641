import NoCapKVM.App.FrameLoop
import NoCapKVM.EventLog.Last

/-! What each machine has received over a run of frames: the messages to the
Slave on the current connection, and the events that reached the local system. -/
open NoCapKVM.Topology
namespace NoCapKVM.App

open Discovery (ConnectionInfo MonitorInfo)
open Input EventLog

/-- The key event that a message carries to the Slave. -/
def Effect.key? : Effect → Option KeyEvent
  | .sendInput msgType payload =>
      if msgType = kMsgKey then
        (decodeKey payload).map fun (vk, scancode, down, extended) => ⟨vk, scancode, down, extended⟩
      else none
  | _ => none

/-- The button event that a message carries to the Slave. -/
def Effect.button? : Effect → Option MouseButtonEvent
  | .sendInput msgType payload =>
      if msgType = kMsgMouseButton then
        (decodeMouseButton payload).map fun (button, down) => ⟨button, down⟩
      else none
  | _ => none

/-- The button event that the pump injects locally. -/
def Effect.localButton? : Effect → Option MouseButtonEvent
  | .inject (.mouseButton button down) => some ⟨button, down⟩
  | _ => none

/-- The button event that the local system sees, from hardware or from
software. -/
def HookEvent.localButton? : HookEvent → Option MouseButtonEvent
  | .mouse message info => message.button? info.mouseDataHigh
  | _ => none

@[simp] theorem decodeKey_encodeKey (vk scancode : UInt32) (down extended : Bool) :
    decodeKey (encodeKey vk scancode down extended) = some (vk, scancode, down, extended) :=
  decodeKey_append [] vk scancode down extended

@[simp] theorem decodeMouseButton_encodeMouseButton (button : UInt8) (down : Bool) :
    decodeMouseButton (encodeMouseButton button down) = some (button, down) :=
  decodeMouseButton_append [] button down

@[simp] theorem decodeMouseWheel_encodeMouseWheel (delta : Int16) :
    decodeMouseWheel (encodeMouseWheel delta) = some delta :=
  decodeMouseWheel_append [] delta

@[simp] theorem decodeMouseAbsolute_encodeMouseAbsolute (x y : Int32) :
    decodeMouseAbsolute (encodeMouseAbsolute x y) = some (x, y) := by
  have hRead := decodeMouseAbsolute_append [] x y
  rwa [List.append_nil] at hRead

@[simp] theorem sendKey_key (k : KeyEvent) : (sendKey k).key? = some k := by
  simp [sendKey, Effect.key?]

@[simp] theorem sendMouseButton_button (b : MouseButtonEvent) : (sendMouseButton b).button? = some b := by
  simp [sendMouseButton, Effect.button?]

@[simp] theorem sendMouseButton_key (b : MouseButtonEvent) : (sendMouseButton b).key? = none := rfl
@[simp] theorem sendMouseWheel_key (delta : Int16) : (sendMouseWheel delta).key? = none := rfl
@[simp] theorem sendMouseAbsolute_key (x y : Int) : (sendMouseAbsolute x y).key? = none := rfl
@[simp] theorem sendModifierSyncMask_key (mask : UInt8) : (sendModifierSyncMask mask).key? = none := rfl
@[simp] theorem sendKey_button (k : KeyEvent) : (sendKey k).button? = none := rfl
@[simp] theorem sendMouseWheel_button (delta : Int16) : (sendMouseWheel delta).button? = none := rfl
@[simp] theorem sendMouseAbsolute_button (x y : Int) : (sendMouseAbsolute x y).button? = none := rfl
@[simp] theorem sendModifierSyncMask_button (mask : UInt8) : (sendModifierSyncMask mask).button? = none := rfl

/-- What is asked of each element of a mapped list can be asked of the
elements before. -/
theorem filterMap_map_some {α β γ : Type} (f : β → Option γ) (g : α → β) (h : α → γ)
    (hEq : ∀ a, f (g a) = some (h a)) (l : List α) : (l.map g).filterMap f = l.map h := by
  induction l with
  | nil => rfl
  | cons a l ih => simp [hEq, ih]

/-- Elements that give nothing give nothing together. -/
theorem filterMap_map_none {α β γ : Type} (f : β → Option γ) (g : α → β) (hEq : ∀ a, f (g a) = none)
    (l : List α) : (l.map g).filterMap f = [] := by
  induction l with
  | nil => rfl
  | cons a l ih => simp [hEq, ih]

/-- A forwarded frame carries its keys, and a release carries the keys
released. -/
theorem forwardFrame_keys (bc : BoundaryCheck) (frame : InputFrame) :
    (forwardFrame bc frame).filterMap Effect.key? = frame.keys := by
  have hButtons := filterMap_map_none Effect.key? sendMouseButton sendMouseButton_key frame.buttons
  have hWheel := filterMap_map_none Effect.key? sendMouseWheel sendMouseWheel_key frame.wheelDeltas
  have hKeys := filterMap_map_some Effect.key? sendKey id sendKey_key frame.keys
  rw [forwardFrame, List.filterMap_append, List.filterMap_append,
    List.filterMap_cons_none (sendMouseAbsolute_key _ _), hButtons, hWheel, hKeys]
  simp

/-- A frame that is forwarded carries its button events to the Slave, in
their order. -/
theorem forwardFrame_buttons (bc : BoundaryCheck) (frame : InputFrame) :
    (forwardFrame bc frame).filterMap Effect.button? = frame.buttons := by
  have hButtons := filterMap_map_some Effect.button? sendMouseButton id sendMouseButton_button frame.buttons
  have hWheel := filterMap_map_none Effect.button? sendMouseWheel sendMouseWheel_button frame.wheelDeltas
  have hKeys := filterMap_map_none Effect.button? sendKey sendKey_button frame.keys
  rw [forwardFrame, List.filterMap_append, List.filterMap_append,
    List.filterMap_cons_none (sendMouseAbsolute_button _ _), hButtons, hWheel, hKeys]
  simp

/-- The keys that are held are released on the Slave, each once. -/
theorem releaseHeldKeysOnSlave_keys (held : List HeldKey) :
    (releaseHeldKeysOnSlave held).filterMap Effect.key? = held.map HeldKey.release := by
  have hKeys := filterMap_map_some Effect.key? (fun k : HeldKey => sendKey k.release) HeldKey.release
    (fun k => sendKey_key k.release) held
  rw [releaseHeldKeysOnSlave, List.filterMap_append, hKeys,
    List.filterMap_cons_none (sendModifierSyncMask_key 0)]
  simp

/-- Releasing the keys touches no button. -/
theorem releaseHeldKeysOnSlave_buttons (held : List HeldKey) :
    (releaseHeldKeysOnSlave held).filterMap Effect.button? = [] := by
  have hKeys := filterMap_map_none Effect.button? (fun k : HeldKey => sendKey k.release)
    (fun k => sendKey_button k.release) held
  rw [releaseHeldKeysOnSlave, List.filterMap_append, hKeys,
    List.filterMap_cons_none (sendModifierSyncMask_button 0)]
  rfl

/-- The state of the program, with what was sent and polled since the hook
became active, and all button events of the local system. -/
structure Desk where
  app : AppState
  sent : List Effect := []
  polled : List KeyEvent := []
  localButtons : List MouseButtonEvent := []

/-- The events that reach the local system while the hook processes them. -/
def passedEvents : InputHook → List HookEvent → List HookEvent
  | _, [] => []
  | h, e :: events =>
      let (h', passed) := h.observe e
      if passed then e :: passedEvents h' events else passedEvents h' events

namespace Desk

variable (d : Desk) (f : Frame)

/-- The keys and buttons that the hook holds when the pump is called. -/
def pending : InputFrame :=
  (d.app.inputHook.capture f.events).pending

/-- Whether the pump drains the hook: not if the Slave has lost
its displays. -/
def Polls : Prop :=
  Live d.app f ∧ (d.app.inputOwnedByMaster = true ∨ f.env.status.peerMonitors ≠ [])

instance : Decidable (d.Polls f) :=
  inferInstanceAs (Decidable (_ ∧ _))

def polledKeys : List KeyEvent :=
  if d.Polls f then (d.pending f).keys else []

def effects : List Effect :=
  (pumpInput (d.app.before f) f.env).2

def passedButtons : List MouseButtonEvent :=
  (passedEvents d.app.inputHook f.events).filterMap HookEvent.localButton?

/-- The state and the logs when the pump of the frame returns. -/
def pumped : Desk where
  app := d.app.pumped f
  sent := (if d.app.inputHookActive then d.sent else []) ++ d.effects f
  polled := (if d.app.inputHookActive then d.polled else []) ++ d.polledKeys f
  localButtons := d.localButtons ++ d.passedButtons f ++ (d.effects f).filterMap Effect.localButton?

def frame : Desk :=
  { d.pumped f with app := d.app.frame f }

end Desk

def Desk.start (localMonitors : List MonitorInfo) (arrangement : UInt64 → Option ArrangementEntry)
    (lastRole : Option Role) : Desk :=
  { app := .start localMonitors arrangement lastRole }

/-- Without a live connection a frame sends nothing. -/
theorem effects_idle {d : Desk} {f : Frame} (h : ¬ Live d.app f) : d.effects f = [] :=
  congrArg Prod.snd (pumpInput_idle h)

/-- The logs go along with a run of the program. -/
theorem desk_app (d : Desk) (frames : List Frame) :
    (frames.foldl Desk.frame d).app = frames.foldl AppState.frame d.app := by
  induction frames generalizing d with
  | nil => rfl
  | cons f frames ih => exact ih (d.frame f)

/-- The state of the program stays sound in every run of frames, whatever is
logged beside it. -/
theorem desk_sound (localMonitors : List MonitorInfo) (arrangement : UInt64 → Option ArrangementEntry)
    (lastRole : Option Role) (frames : List Frame) :
    Sound (frames.foldl Desk.frame (.start localMonitors arrangement lastRole)).app := by
  rw [desk_app]
  exact sound_run localMonitors arrangement lastRole frames

namespace SideBySide

def screen : MonitorInfo := { width := 1920, height := 1080 }

/-- Master with the Slave on its right. -/
def desk : Desk :=
  .start [screen] (fun _ => some ⟨7, .right, 0⟩) (some .master)

def env : Surroundings where
  status := { state := .connected, peerDeviceId := 7, peerMonitors := [screen] }
  anchor := ⟨1900, 540⟩
  cursorPos := some ⟨1900, 540⟩

/-- A frame in which `events` happen. -/
def during (events : List HookEvent) : Frame := { events, env }

/-- The mouse moves over the right edge. -/
def swipeOut : Frame := during [.mouse .mouseMove { x := 1930, y := 540 }]

/-- The mouse moves back over the left edge of the Slave. -/
def swipeBack : Frame := during [.rawInput (-60) 0]

end SideBySide

end NoCapKVM.App
