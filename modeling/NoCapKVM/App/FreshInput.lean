import NoCapKVM.App.EventOrder
import NoCapKVM.EventLog.Since

/-! What the hook still holds from one session of the input pump in the next. -/
open NoCapKVM.Topology
namespace NoCapKVM.App

open Discovery (MonitorInfo)
open Input EventLog

/-- The frame that a live frame's pump polls. -/
def AppState.polled (state : AppState) (f : Frame) : InputFrame :=
  (pollFrame (state.ready f)).1

/-- The pump deactivates the hook after the frames `log` and in
the frame `f`. -/
def LetsGo (start : AppState) (log : List Frame) (f : Frame) : Prop :=
  let state := log.foldl AppState.frame start
  state.inputHookActive = true ∧ ¬ Live state f

/-- Events that no poll has taken are pending when the hook is deactivated. -/
def LetsGoFull (start : AppState) (log : List Frame) (f : Frame) : Prop :=
  LetsGo start log f ∧ ((log.foldl AppState.frame start).before f).inputHook.pending ≠ {}

def LetsGoEmpty (start : AppState) (log : List Frame) (f : Frame) : Prop :=
  LetsGo start log f ∧ ((log.foldl AppState.frame start).before f).inputHook.pending = {}

/-- Deactivation keeps what is pending. -/
theorem Sound.frame_letsGo {state : AppState} (h : Sound state) {f : Frame} (hActive : state.inputHookActive = true)
    (hLive : ¬ Live state f) :
    (state.frame f).inputHook.installed = false ∧
      (state.frame f).inputHook.pending = (state.before f).inputHook.pending := by
  have hDraw : (state.frame f).inputHook = (state.pumped f).inputHook := (draw_owned _ f.action).1
  rw [hDraw, AppState.pumped, pumpInput_idle hLive, if_pos ⟨h.active hActive, hActive⟩]
  exact ⟨rfl, rfl⟩

/-- A hook that is not installed records nothing, so that it
stays as it is. -/
theorem frame_idle {state : AppState} {f : Frame} (hActive : state.inputHookActive = false)
    (hInstalled : state.inputHook.installed = false) (hLive : ¬ Live state f) :
    (state.frame f).inputHook = state.inputHook := by
  have hDraw : (state.frame f).inputHook = (state.pumped f).inputHook := (draw_owned _ f.action).1
  have hNot : ¬ (state.role = .master ∧ state.inputHookActive = true) := by simp [hActive]
  rw [hDraw, AppState.pumped, pumpInput_idle hLive, if_neg hNot]
  exact capture_uninstalled hInstalled f.events

/-- Installing the hook clears nothing. -/
theorem polled_of_uninstalled {state : AppState} (hInstalled : state.inputHook.installed = false) (f : Frame) :
    state.polled f = state.inputHook.pending :=
  calc state.polled f
      = (state.inputHook.capture f.events).pending := ready_pending state f
    _ = state.inputHook.pending := congrArg InputHook.pending (capture_uninstalled hInstalled f.events)

/-- What an inactive hook holds was left behind when it was
deactivated last. -/
theorem inactive_pending (localMonitors : List MonitorInfo) (arrangement : UInt64 → Option ArrangementEntry)
    (lastRole : Option Role) (frames : List Frame) :
    let start := AppState.start localMonitors arrangement lastRole
    let state := frames.foldl AppState.frame start
    state.inputHookActive = false →
      state.inputHook.installed = false ∧
        (state.inputHook.pending = {} ↔ ¬ Since (LetsGoFull start) (LetsGoEmpty start) frames) := by
  intro start state hInactive
  induction frames using List.reverseRecOn with
  | nil =>
      have hFresh : start.inputHook = {} := by cases lastRole <;> rfl
      show start.inputHook.installed = false ∧ (start.inputHook.pending = {} ↔ _)
      rw [hFresh]
      exact ⟨rfl, iff_of_true rfl not_since_nil⟩
  | append_singleton log f ih =>
      have hSound : Sound (log.foldl AppState.frame start) := sound_run localMonitors arrangement lastRole log
      have hState : state = (log.foldl AppState.frame start).frame f := List.foldl_concat ..
      have hLive : ¬ Live (log.foldl AppState.frame start) f := by
        rw [← hSound.frame_active f, ← hState, hInactive]
        exact Bool.false_ne_true
      rw [hState, since_concat]
      cases hActive : (log.foldl AppState.frame start).inputHookActive with
      | true =>
          obtain ⟨hInstalled, hPending⟩ := hSound.frame_letsGo hActive hLive
          refine ⟨hInstalled, ?_⟩
          rw [hPending]
          by_cases hEmpty : ((log.foldl AppState.frame start).before f).inputHook.pending = {}
          · refine iff_of_true hEmpty ?_
            rintro (⟨-, hFull⟩ | ⟨-, hNot⟩)
            · exact hFull hEmpty
            · exact hNot ⟨⟨hActive, hLive⟩, hEmpty⟩
          · exact iff_of_false hEmpty fun hNone => hNone (.inl ⟨⟨hActive, hLive⟩, hEmpty⟩)
      | false =>
          obtain ⟨hInstalled, hSince⟩ := ih hActive
          have hNo : ¬ LetsGo start log f := fun h => Bool.noConfusion (hActive.symm.trans h.1)
          rw [frame_idle hActive hInstalled hLive, hSince]
          refine ⟨hInstalled, not_congr ⟨fun h => .inr ⟨h, fun hEmpty => hNo hEmpty.1⟩, ?_⟩⟩
          rintro (hFull | ⟨h, -⟩)
          · exact absurd hFull.1 hNo
          · exact h

/-- The first poll of a session, in the frame that activates the hook, has
nothing from before unless the hook was full when it was deactivated last. -/
theorem fresh_input_iff (localMonitors : List MonitorInfo) (arrangement : UInt64 → Option ArrangementEntry)
    (lastRole : Option Role) (frames : List Frame) (f : Frame) :
    let start := AppState.start localMonitors arrangement lastRole
    let state := frames.foldl AppState.frame start
    state.inputHookActive = false → Live state f →
      (state.polled f = {} ↔ ¬ Since (LetsGoFull start) (LetsGoEmpty start) frames) := by
  intro start state hInactive _
  obtain ⟨hInstalled, hSince⟩ := inactive_pending localMonitors arrangement lastRole frames hInactive
  rw [polled_of_uninstalled hInstalled f]
  exact hSince

open SideBySide

/-- The connection is lost in the frame in which a key is pressed. -/
def cutOff : Frame :=
  { events := [.keyboard true { vkCode := 0x41, scanCode := 30 }], env := { status := {} } }

theorem fresh_input_cutOff :
    let state := [during [], cutOff].foldl AppState.frame (.start [screen] (fun _ => none) (some .master))
    (state.polled (during []) = {} ↔
      ¬ Since (LetsGoFull (.start [screen] (fun _ => none) (some .master)))
        (LetsGoEmpty (.start [screen] (fun _ => none) (some .master))) [during [], cutOff]) :=
  fresh_input_iff [screen] (fun _ => none) (some .master) [during [], cutOff] (during []) (by decide +kernel)
    (by decide +kernel)

/-- The next session begins with it. -/
theorem stale_key :
    let state := [during [], cutOff].foldl AppState.frame (.start [screen] (fun _ => none) (some .master))
    state.inputHookActive = false ∧ Live state (during []) ∧
      (state.polled (during [])).keys = [⟨0x41, 30, true, false⟩] ∧
      (state.frame (during [])).inputHeldKeys = [⟨0x41, 30, false⟩] := by
  decide +kernel

end NoCapKVM.App
