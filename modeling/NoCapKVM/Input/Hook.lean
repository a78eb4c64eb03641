import NoCapKVM.Input.Protocol

/-! `input/hook.cpp`: what the Windows hooks capture and what they let through. -/
namespace NoCapKVM.Input

structure MouseButtonEvent where
  button : UInt8
  down : Bool
  deriving DecidableEq

structure KeyEvent where
  vk : UInt32
  scancode : UInt32
  down : Bool
  extended : Bool
  deriving DecidableEq

structure InputFrame where
  dx : Int := 0
  dy : Int := 0
  buttons : List MouseButtonEvent := []
  wheelDeltas : List Int16 := []
  keys : List KeyEvent := []
  deriving DecidableEq

/-- `installed` stands for the two hook handles and `g_instance`. -/
structure InputHook where
  installed : Bool := false
  suppress : Bool := false
  anchorX : Int := 0
  anchorY : Int := 0
  pending : InputFrame := {}
  deriving DecidableEq

namespace InputHook

def uninstall (h : InputHook) : InputHook :=
  { h with installed := false }

/-- `GetCursorPos` says `(x, y)`, and `hooksSet` tells whether Windows accepts
both hooks. -/
def install (h : InputHook) (x y : Int) (hooksSet : Bool) : InputHook × Bool :=
  if h.installed then (h, false)
  else
    let h := { h with anchorX := x, anchorY := y }
    if hooksSet then ({ h with installed := true }, true) else (h.uninstall, false)

def suppressed (h : InputHook) : InputHook :=
  { h with suppress := true }

def resume (h : InputHook) : InputHook :=
  { h with suppress := false }

def resumeAt (h : InputHook) (x y : Int) : InputHook :=
  { h with anchorX := x, anchorY := y, suppress := false }

def poll (h : InputHook) : InputFrame × InputHook :=
  (h.pending, { h with pending := {} })

@[simp] theorem install_suppress (h : InputHook) (x y : Int) (hooksSet : Bool) :
    (h.install x y hooksSet).1.suppress = h.suppress := by
  unfold install
  cases h.installed <;> cases hooksSet <;> rfl

@[simp] theorem install_pending (h : InputHook) (x y : Int) (hooksSet : Bool) :
    (h.install x y hooksSet).1.pending = h.pending := by
  unfold install
  cases h.installed <;> cases hooksSet <;> rfl

end InputHook

inductive MouseMessage where
  | mouseMove
  | mouseWheel
  | lButtonDown
  | lButtonUp
  | rButtonDown
  | rButtonUp
  | mButtonDown
  | mButtonUp
  | xButtonDown
  | xButtonUp
  | other
  deriving DecidableEq

structure MouseInfo where
  x : Int
  y : Int
  mouseDataHigh : UInt16 := 0
  injected : Bool := false
  deriving DecidableEq

structure KeyInfo where
  vkCode : UInt32
  scanCode : UInt32
  extended : Bool := false
  injected : Bool := false
  deriving DecidableEq

def xButton1 : UInt16 := 1

def buttonFromWparam (message : MouseMessage) (mouseDataHigh : UInt16) : UInt8 :=
  match message with
  | .lButtonDown | .lButtonUp => 0
  | .rButtonDown | .rButtonUp => 1
  | .mButtonDown | .mButtonUp => 2
  | _ => if mouseDataHigh = xButton1 then 3 else 4

def InputHook.pushButton (h : InputHook) (message : MouseMessage) (info : MouseInfo) (down : Bool) :
    InputHook × Bool :=
  let event := ⟨buttonFromWparam message info.mouseDataHigh, down⟩
  ({ h with pending := { h.pending with buttons := h.pending.buttons ++ [event] } }, !h.suppress)

/-- The hook and whether the event goes on to the local system. -/
def mouseProc (h : InputHook) (message : MouseMessage) (info : MouseInfo) : InputHook × Bool :=
  if !h.installed then (h, true)
  else if info.injected then (h, true)
  else
    match message with
    | .mouseMove =>
        if h.suppress then (h, false)
        else
          ({ h with
              pending := { h.pending with dx := h.pending.dx + (info.x - h.anchorX),
                                          dy := h.pending.dy + (info.y - h.anchorY) },
              anchorX := info.x, anchorY := info.y }, true)
    | .mouseWheel =>
        ({ h with
            pending := { h.pending with
              wheelDeltas := h.pending.wheelDeltas ++ [info.mouseDataHigh.toInt16] } }, !h.suppress)
    | .lButtonDown | .rButtonDown | .mButtonDown | .xButtonDown => h.pushButton message info true
    | .lButtonUp | .rButtonUp | .mButtonUp | .xButtonUp => h.pushButton message info false
    | .other => (h, true)

def keyboardProc (h : InputHook) (down : Bool) (info : KeyInfo) : InputHook × Bool :=
  if !h.installed then (h, true)
  else if info.injected then (h, true)
  else
    let event := ⟨info.vkCode, info.scanCode, down, info.extended⟩
    ({ h with pending := { h.pending with keys := h.pending.keys ++ [event] } }, !h.suppress)

def feedRawDelta (h : InputHook) (dx dy : Int) : InputHook :=
  if h.installed && h.suppress then
    { h with pending := { h.pending with dx := h.pending.dx + dx, dy := h.pending.dy + dy } }
  else h

/-- What Windows calls the hook with: a hook procedure, or a raw input
message. -/
inductive HookEvent where
  | mouse (message : MouseMessage) (info : MouseInfo)
  | keyboard (down : Bool) (info : KeyInfo)
  | rawInput (dx dy : Int)
  deriving DecidableEq

/-- The hook after an event, and whether the local system gets the event. A
raw input message is no event of its own for the local system. -/
def InputHook.observe (h : InputHook) : HookEvent → InputHook × Bool
  | .mouse message info => mouseProc h message info
  | .keyboard down info => keyboardProc h down info
  | .rawInput dx dy => (feedRawDelta h dx dy, false)

/-- The events between two polls. -/
def InputHook.capture (h : InputHook) (events : List HookEvent) : InputHook :=
  events.foldl (fun h e => (h.observe e).1) h

def MouseMessage.button? (message : MouseMessage) (mouseDataHigh : UInt16) : Option MouseButtonEvent :=
  match message with
  | .lButtonDown | .rButtonDown | .mButtonDown | .xButtonDown =>
      some ⟨buttonFromWparam message mouseDataHigh, true⟩
  | .lButtonUp | .rButtonUp | .mButtonUp | .xButtonUp =>
      some ⟨buttonFromWparam message mouseDataHigh, false⟩
  | _ => none

/-- The button event that `mouse_proc` records. -/
def HookEvent.button? : HookEvent → Option MouseButtonEvent
  | .mouse message info => if info.injected then none else message.button? info.mouseDataHigh
  | _ => none

def HookEvent.wheel? : HookEvent → Option Int16
  | .mouse .mouseWheel info => if info.injected then none else some info.mouseDataHigh.toInt16
  | _ => none

/-- The key event that `keyboard_proc` records. -/
def HookEvent.key? : HookEvent → Option KeyEvent
  | .keyboard down info =>
      if info.injected then none else some ⟨info.vkCode, info.scanCode, down, info.extended⟩
  | _ => none

/-- What one event does to an installed hook: its flags stay, and the pending
frame grows by the event. -/
structure Observed (h h' : InputHook) (e : HookEvent) : Prop where
  installed : h'.installed = h.installed
  suppress : h'.suppress = h.suppress
  buttons : h'.pending.buttons = h.pending.buttons ++ e.button?.toList
  wheelDeltas : h'.pending.wheelDeltas = h.pending.wheelDeltas ++ e.wheel?.toList
  keys : h'.pending.keys = h.pending.keys ++ e.key?.toList

theorem observe_observed {h : InputHook} (hInstalled : h.installed = true) (e : HookEvent) :
    Observed h (h.observe e).1 e := by
  cases e with
  | mouse message info =>
      cases hInjected : info.injected with
      | true =>
          cases message <;> constructor <;>
            simp [InputHook.observe, mouseProc, HookEvent.button?, HookEvent.wheel?, HookEvent.key?,
              hInstalled, hInjected]
      | false =>
          cases message <;> cases hSuppress : h.suppress <;> constructor <;>
            simp [InputHook.observe, mouseProc, InputHook.pushButton, HookEvent.button?, MouseMessage.button?,
              HookEvent.wheel?, HookEvent.key?, hInstalled, hInjected, hSuppress]
  | keyboard down info =>
      cases hInjected : info.injected <;> constructor <;>
        simp [InputHook.observe, keyboardProc, HookEvent.button?, HookEvent.wheel?, HookEvent.key?,
          hInstalled, hInjected]
  | rawInput dx dy =>
      cases hSuppress : h.suppress <;> constructor <;>
        simp [InputHook.observe, feedRawDelta, HookEvent.button?, HookEvent.wheel?, HookEvent.key?,
          hInstalled, hSuppress]

/-- A hook that is not installed records nothing. -/
theorem observe_uninstalled {h : InputHook} (hInstalled : h.installed = false) (e : HookEvent) :
    (h.observe e).1 = h := by
  cases e <;> simp [InputHook.observe, mouseProc, keyboardProc, feedRawDelta, hInstalled]

theorem capture_uninstalled {h : InputHook} (hInstalled : h.installed = false) (events : List HookEvent) :
    h.capture events = h := by
  induction events with
  | nil => rfl
  | cons e events ih =>
      rw [InputHook.capture, List.foldl_cons, observe_uninstalled hInstalled]
      exact ih

/-- The flags of the hook stay over the events between two polls. -/
theorem capture_flags (h : InputHook) (events : List HookEvent) :
    (h.capture events).installed = h.installed ∧ (h.capture events).suppress = h.suppress := by
  cases hHook : h.installed with
  | false => rw [capture_uninstalled hHook]; exact ⟨hHook, rfl⟩
  | true =>
      induction events generalizing h with
      | nil => exact ⟨hHook, rfl⟩
      | cons e events ih =>
          have hStep := observe_observed hHook e
          obtain ⟨hInstalled, hSuppress⟩ := ih (h.observe e).1 (hStep.installed.trans hHook)
          exact ⟨hInstalled, hSuppress.trans hStep.suppress⟩

@[simp] theorem capture_installed (h : InputHook) (events : List HookEvent) :
    (h.capture events).installed = h.installed :=
  (capture_flags h events).1

@[simp] theorem capture_suppress (h : InputHook) (events : List HookEvent) :
    (h.capture events).suppress = h.suppress :=
  (capture_flags h events).2

/-- The events that a hook records. -/
def InputHook.heard (h : InputHook) (events : List HookEvent) : List HookEvent :=
  if h.installed then events else []

end NoCapKVM.Input
