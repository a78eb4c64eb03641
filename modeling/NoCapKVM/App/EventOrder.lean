import NoCapKVM.App.Deliveries

/-! The order in which the Slave injects what one frame captured. -/
open NoCapKVM.Topology
namespace NoCapKVM.App

open Discovery (ConnectionInfo MonitorInfo)
open Input

/-- The call that a message leads to on the Slave. -/
def Effect.injection? : Effect → Option Injection
  | .sendInput msgType payload => dispatchInputMessage msgType payload
  | _ => none

def MouseButtonEvent.injection (b : MouseButtonEvent) : Injection :=
  .mouseButton b.button b.down

def KeyEvent.injection (k : KeyEvent) : Injection :=
  .key k.vk k.scancode k.down k.extended

/-- No click touches the hook or the owner of the input. -/
theorem draw_owned (state : AppState) (a : UiAction) :
    (draw state a).inputHook = state.inputHook ∧
      (draw state a).inputOwnedByMaster = state.inputOwnedByMaster := by
  cases a with
  | other => exact ⟨rfl, rfl⟩
  | _ =>
      unfold draw
      simp only
      split <;> exact ⟨rfl, rfl⟩

/-- The call that one captured event asks of the Slave, moves apart. -/
def HookEvent.injection? (e : HookEvent) : Option Injection :=
  (e.button?.map MouseButtonEvent.injection).or
    ((e.wheel?.map .mouseWheel).or (e.key?.map KeyEvent.injection))

end NoCapKVM.App
