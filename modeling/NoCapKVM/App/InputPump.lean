import NoCapKVM.Discovery.ConnectionInfo
import NoCapKVM.Input.Hook
import NoCapKVM.Topology.Crossing

/-! `app/input_pump.cpp`, as built for Windows: who owns the input, and what
each frame of the pump tells the Slave and the local system. -/
open NoCapKVM.Topology
namespace NoCapKVM.App

open Discovery (ConnectionInfo MonitorInfo)
open Input

inductive Role where
  | master
  | slave
  deriving DecidableEq

inductive Screen where
  | roleSelect
  | discovery
  | manageDevices
  | arrangement
  deriving DecidableEq

structure HeldKey where
  vk : UInt32
  scancode : UInt32
  extended : Bool
  deriving DecidableEq

/-- The parts of `AppState` that the input pump and the screens around it use.
`tcpServer` says whether there is a server. -/
structure AppState where
  screen : Screen := .roleSelect
  previousScreen : Screen := .roleSelect
  role : Role := .master
  localMonitors : List MonitorInfo := []
  screenArrangement : UInt64 → Option ArrangementEntry := fun _ => none
  tcpServer : Bool := false
  inputHook : InputHook := {}
  inputHookActive : Bool := false
  inputOwnedByMaster : Bool := true
  inputLogicalX : Int := 0
  inputLogicalY : Int := 0
  inputJustHandedOff : Bool := false
  inputHeldKeys : List HeldKey := []

/-- What the pump reads from outside: the server's status, the cursor, whether
Windows accepts the hooks, and the modifiers that are physically held. -/
structure Surroundings where
  status : ConnectionInfo
  anchor : Point := ⟨0, 0⟩
  hooksSet : Bool := true
  cursorPos : Option Point := none
  currentModifierMask : UInt8 := 0

/-- What the pump does outside: messages to the Slave through `send_input`,
calls of `inject.h` on the local system, a warp of the local cursor, an end of
the connection. -/
inductive Effect where
  | sendInput (msgType : UInt8) (payload : List UInt8)
  | inject (call : Injection)
  | setCursorPos (x y : Int)
  | disconnectCurrent
  deriving DecidableEq

def vkShift : UInt32 := 0x10
def vkControl : UInt32 := 0x11
def vkMenu : UInt32 := 0x12
def vkEscape : UInt32 := 0x1B
def vkLShift : UInt32 := 0xA0
def vkRShift : UInt32 := 0xA1
def vkLControl : UInt32 := 0xA2
def vkRControl : UInt32 := 0xA3
def vkLMenu : UInt32 := 0xA4
def vkRMenu : UInt32 := 0xA5

def escapeComboHeld (held : List HeldKey) : Bool :=
  let down (vks : List UInt32) := held.any fun k => vks.contains k.vk
  down [vkControl, vkLControl, vkRControl] && down [vkMenu, vkLMenu, vkRMenu] &&
    down [vkShift, vkLShift, vkRShift] && down [vkEscape]

def sendMouseAbsolute (x y : Int) : Effect :=
  .sendInput kMsgMouseAbsolute (encodeMouseAbsolute (.ofInt x) (.ofInt y))

def sendMouseButton (b : MouseButtonEvent) : Effect :=
  .sendInput kMsgMouseButton (encodeMouseButton b.button b.down)

def sendMouseWheel (delta : Int16) : Effect :=
  .sendInput kMsgMouseWheel (encodeMouseWheel delta)

def sendKey (k : KeyEvent) : Effect :=
  .sendInput kMsgKey (encodeKey k.vk k.scancode k.down k.extended)

def sendModifierSyncMask (mask : UInt8) : Effect :=
  .sendInput kMsgModifierSync (encodeModifierSync mask)

def HeldKey.release (k : HeldKey) : KeyEvent :=
  ⟨k.vk, k.scancode, false, k.extended⟩

def releaseHeldKeysOnSlave (held : List HeldKey) : List Effect :=
  held.map (fun k => sendKey k.release) ++ [sendModifierSyncMask 0]

def releaseHeldKeysLocally (held : List HeldKey) : List Effect :=
  held.map fun k => .inject (.key k.vk k.scancode false k.extended)

/-- `*it = k` at the first entry of the same virtual key, or else
`push_back(k)`. -/
def refreshHeldKey (k : HeldKey) : List HeldKey → List HeldKey
  | [] => [k]
  | h :: held => if h.vk = k.vk then k :: held else h :: refreshHeldKey k held

def trackKey (held : List HeldKey) (k : KeyEvent) : List HeldKey :=
  if k.down then refreshHeldKey ⟨k.vk, k.scancode, k.extended⟩ held
  else held.eraseP (·.vk = k.vk)

def deactivateHook (state : AppState) : AppState :=
  { state with
    inputHook := state.inputHook.resume.uninstall
    inputHookActive := false
    inputOwnedByMaster := true
    inputHeldKeys := [] }

def centre (b : ClusterBounds) : Point :=
  ⟨(b.minX + b.maxX).tdiv 2, (b.minY + b.maxY).tdiv 2⟩

def activateHook (state : AppState) (env : Surroundings) : AppState :=
  let start := env.cursorPos.getD (centre (computeBounds state.localMonitors))
  { state with
    inputHook := (state.inputHook.install env.anchor.x env.anchor.y env.hooksSet).1
    inputHookActive := true
    inputOwnedByMaster := true
    inputLogicalX := start.x
    inputLogicalY := start.y }

/-- The landing point, with the overshoot carried along the axis that is
crossed. -/
def carryOvershoot (cross : CrossingResult) (horizontal : Bool) (overshoot : Int) : Point :=
  ⟨cross.x + (if horizontal then overshoot else 0), cross.y + (if horizontal then 0 else overshoot)⟩

/-- Where the pointer goes on the Slave, if `handle_master_owned` hands the
input over. -/
def outboundCrossing (state : AppState) (info : ConnectionInfo) (x y : Int) (bc : BoundaryCheck) :
    Option Point :=
  match state.screenArrangement info.peerDeviceId with
  | none => none
  | some arrangement =>
      if !state.inputJustHandedOff && bc.crossed && arrangement.direction = bc.direction &&
          info.peerMonitors ≠ [] then
        let cross := computeCrossing info.peerMonitors arrangement.direction arrangement.offset bc.perpPos
        if cross.hasTarget then
          let horizontal := bc.direction.horizontal
          let overshoot := if horizontal then x - bc.clampedX else y - bc.clampedY
          some (carryOvershoot cross horizontal overshoot)
        else none
      else none

def handleMasterOwned (state : AppState) (info : ConnectionInfo) (currentModifierMask : UInt8)
    (frame : InputFrame) : AppState × List Effect :=
  let x := state.inputLogicalX + frame.dx
  let y := state.inputLogicalY + frame.dy
  let bc := checkBoundary (computeBounds state.localMonitors) x y
  match outboundCrossing state info x y bc with
  | some p =>
      ({ state with
          inputOwnedByMaster := false
          inputLogicalX := p.x
          inputLogicalY := p.y
          inputJustHandedOff := true
          inputHook := state.inputHook.suppressed },
        [sendMouseAbsolute p.x p.y, sendModifierSyncMask currentModifierMask] ++
          releaseHeldKeysLocally state.inputHeldKeys)
  | none =>
      ({ state with
          inputLogicalX := bc.clampedX
          inputLogicalY := bc.clampedY
          inputJustHandedOff := false }, [])

def kReturnMargin : Int := 4

def pastMargin (bc : BoundaryCheck) (x y : Int) : Bool :=
  let overshootX := x - bc.clampedX
  let overshootY := y - bc.clampedY
  bc.crossed && ((overshootX ≥ kReturnMargin || overshootX ≤ -kReturnMargin) ||
    (overshootY ≥ kReturnMargin || overshootY ≤ -kReturnMargin))

/-- The inverse entry, if the pointer pushes against the edge that
faces Master. -/
def crossableEdge (state : AppState) (info : ConnectionInfo) (bc : BoundaryCheck) : Option ArrangementEntry :=
  match state.screenArrangement info.peerDeviceId with
  | none => none
  | some arrangement =>
      let inv := invertEntry arrangement (computeBounds state.localMonitors) (computeBounds info.peerMonitors)
      if bc.crossed && bc.direction = inv.direction then some inv else none

/-- Where the pointer goes on Master, if `handle_slave_owned` hands
the input back. -/
def returnCrossing (state : AppState) (inv : ArrangementEntry) (x y : Int) (bc : BoundaryCheck) :
    Option Point :=
  if state.inputJustHandedOff || !pastMargin bc x y then none
  else
    let cross := computeCrossing state.localMonitors inv.direction inv.offset bc.perpPos
    if cross.hasTarget then
      let horizontal := bc.direction.horizontal
      let overshoot := if horizontal then x - bc.clampedX else y - bc.clampedY
      some (carryOvershoot cross horizontal overshoot)
    else none

/-- The frame as it is sent to the Slave. -/
def forwardFrame (bc : BoundaryCheck) (frame : InputFrame) : List Effect :=
  sendMouseAbsolute bc.clampedX bc.clampedY :: frame.buttons.map sendMouseButton ++
    frame.wheelDeltas.map sendMouseWheel ++ frame.keys.map sendKey

def handleSlaveOwned (state : AppState) (info : ConnectionInfo) (frame : InputFrame) :
    AppState × List Effect :=
  let x := state.inputLogicalX + frame.dx
  let y := state.inputLogicalY + frame.dy
  let bc := checkBoundary (computeBounds info.peerMonitors) x y
  match crossableEdge state info bc with
  | none =>
      ({ state with
          inputLogicalX := bc.clampedX
          inputLogicalY := bc.clampedY
          inputJustHandedOff := false }, forwardFrame bc frame)
  | some inv =>
      match returnCrossing state inv x y bc with
      | none =>
          ({ state with
              inputLogicalX := if bc.direction.horizontal then x else bc.clampedX
              inputLogicalY := if bc.direction.horizontal then bc.clampedY else y
              inputJustHandedOff := false }, forwardFrame bc frame)
      | some p =>
          ({ state with
              inputOwnedByMaster := true
              inputLogicalX := p.x
              inputLogicalY := p.y
              inputJustHandedOff := true
              inputHook := state.inputHook.resumeAt p.x p.y },
            forwardFrame bc frame ++ releaseHeldKeysOnSlave state.inputHeldKeys ++ [.setCursorPos p.x p.y])

/-- Control returns to the middle of Master's screens, as after the loss of
the Slave's displays and after the escape hotkey. -/
def resumeInterior (state : AppState) : AppState × List Effect :=
  let safe := centre (computeBounds state.localMonitors)
  ({ state with
      inputHook := state.inputHook.resumeAt safe.x safe.y
      inputOwnedByMaster := true
      inputLogicalX := safe.x
      inputLogicalY := safe.y
      inputJustHandedOff := true },
    .setCursorPos safe.x safe.y :: releaseHeldKeysOnSlave state.inputHeldKeys)

/-- The hook's frame is drained and the held keys are brought up to date. -/
def pollFrame (state : AppState) : InputFrame × AppState :=
  let (frame, hook) := state.inputHook.poll
  (frame, { state with inputHook := hook, inputHeldKeys := frame.keys.foldl trackKey state.inputHeldKeys })

/-- The part of `pump_input` after the hook is known to be active. -/
def pumpConnected (state : AppState) (info : ConnectionInfo) (currentModifierMask : UInt8) :
    AppState × List Effect :=
  if !state.inputOwnedByMaster && info.peerMonitors.isEmpty then resumeInterior state
  else
    let (frame, state) := pollFrame state
    if escapeComboHeld state.inputHeldKeys && !state.inputOwnedByMaster then
      let (state, effects) := resumeInterior state
      (state, effects ++ [.disconnectCurrent])
    else if state.inputOwnedByMaster then handleMasterOwned state info currentModifierMask frame
    else handleSlaveOwned state info frame

def pumpInput (state : AppState) (env : Surroundings) : AppState × List Effect :=
  if state.role ≠ .master then (state, [])
  else if !state.tcpServer || env.status.state ≠ .connected then
    (if state.inputHookActive then deactivateHook state else state, [])
  else
    let state := if state.inputHookActive then state else activateHook state env
    pumpConnected state env.status env.currentModifierMask

end NoCapKVM.App
