import NoCapKVM.App.HeldKeyMap

/-! Which keys a handback leaves pressed on the Slave. -/
open NoCapKVM.Topology
namespace NoCapKVM.App

open Discovery (ConnectionInfo MonitorInfo)
open Input EventLog

/-- The keys held are those of the events polled since the hook
became active. -/
def Tracked (d : Desk) : Prop :=
  d.app.inputHookActive = true → d.app.inputHeldKeys = d.polled.foldl trackKey []

theorem polled_pending (d : Desk) (f : Frame) : (pollFrame (d.app.ready f)).1 = d.pending f :=
  ready_pending d.app f

theorem polled_held (d : Desk) (f : Frame) :
    (pollFrame (d.app.ready f)).2.inputHeldKeys = (d.pending f).keys.foldl trackKey d.app.inputHeldKeys := by
  rw [← polled_pending, ← ready_heldKeys d.app f]
  rfl

theorem polledKeys_eq {d : Desk} (hSound : Sound d.app) (f : Frame) : d.polledKeys f = d.app.trackedKeys f := by
  have hPolls : d.Polls f ↔ d.app.TracksKeys f := by
    unfold Desk.Polls AppState.TracksKeys
    rw [hSound.ready_owned f]
  unfold Desk.polledKeys AppState.trackedKeys
  rw [polled_pending, if_congr hPolls rfl rfl]

theorem Tracked.frame {d : Desk} (h : Tracked d) (hSound : Sound d.app) (f : Frame) : Tracked (d.frame f) := by
  intro hActive
  have hLive : Live d.app f := (hSound.frame_active f).mp hActive
  -- the log goes on, or begins when the hook was not active
  have hBefore : d.app.inputHeldKeys = (if d.app.inputHookActive then d.polled else []).foldl trackKey [] := by
    cases hHook : d.app.inputHookActive with
    | true => exact h hHook
    | false => exact (hSound.inactive hHook).2
  calc (d.app.frame f).inputHeldKeys
      = (d.app.pumped f).inputHeldKeys := frame_heldKeys d.app f
    _ = (d.app.trackedKeys f).foldl trackKey d.app.inputHeldKeys := by
        rw [pumped_heldKeys, if_neg fun hClears => hClears.2.2 hLive]
    _ = (d.frame f).polled.foldl trackKey [] := by
        rw [hBefore, ← List.foldl_append, ← polledKeys_eq hSound]
        rfl

theorem tracked_run (localMonitors : List MonitorInfo) (arrangement : UInt64 → Option ArrangementEntry)
    (lastRole : Option Role) (frames : List Frame) :
    Tracked (frames.foldl Desk.frame (.start localMonitors arrangement lastRole)) := by
  induction frames using List.reverseRecOn with
  | nil =>
      intro hActive
      cases lastRole <;> cases hActive
  | append_singleton frames f ih =>
      rw [List.foldl_append]
      exact ih.frame (desk_sound localMonitors arrangement lastRole frames) f

/-- A physical key. -/
def physicalKey (e : KeyEvent) : UInt32 × Bool :=
  (e.scancode, e.extended)

/-- The Slave was last told that the key is down. -/
def DownOnSlave (keys : List KeyEvent) (key : UInt32 × Bool) : Prop :=
  Down physicalKey KeyEvent.down keys key

instance (keys : List KeyEvent) (key : UInt32 × Bool) : Decidable (DownOnSlave keys key) :=
  inferInstanceAs (Decidable (Down _ _ _ _))

/-- Of some virtual key, the last event was a press of this physical key. -/
def StillHeld (polled : List KeyEvent) (key : UInt32 × Bool) : Prop :=
  ∃ vk, last? KeyEvent.vk polled vk = some ⟨vk, key.1, true, key.2⟩

namespace Desk

variable (d : Desk) (f : Frame)

/-- All keys polled when the frame hands the input back. -/
def heardKeys : List KeyEvent :=
  d.polled ++ if f.env.status.peerMonitors = [] then [] else (d.pending f).keys

/-- All keys forwarded to the Slave by then. The frame's own keys are left out
if the Slave has lost its displays or the escape hotkey is held. -/
def toldKeys : List KeyEvent :=
  d.sent.filterMap Effect.key? ++
    if f.env.status.peerMonitors = [] ∨
        escapeComboHeld ((d.pending f).keys.foldl trackKey d.app.inputHeldKeys) = true then []
    else (d.pending f).keys

end Desk

/-- A handback tells the Slave the keys of the frame, unless it came too late
for them, and then a release of each key that is held. -/
theorem handback_keys {d : Desk} {f : Frame} (hSound : Sound d.app) (hTracked : Tracked d) (hLive : Live d.app f)
    (hSlave : d.app.inputOwnedByMaster = false) (hMaster : (d.pumped f).app.inputOwnedByMaster = true) :
    (d.pumped f).sent.filterMap Effect.key? =
      d.toldKeys f ++ ((d.heardKeys f).foldl trackKey []).map HeldKey.release := by
  have hActive := hSound.active_of_slave hSlave
  have hHeld := ready_heldKeys d.app f
  have hPoll := polled_held d f
  have hPumped : (pumpInput (d.app.before f) f.env).1.inputOwnedByMaster = true := hMaster
  have hSent : (d.pumped f).sent = d.sent ++ d.effects f := by
    show (if d.app.inputHookActive then d.sent else []) ++ _ = _
    rw [if_pos hActive]
  rw [hSent, List.filterMap_append, Desk.effects, Desk.toldKeys, Desk.heardKeys, List.append_assoc]
  have hOutcome := pumpInput_outcome hLive
  generalize pumpInput (d.app.before f) f.env = r at hOutcome hPumped
  congr 1
  cases hOutcome with
  | displaysLost _ hMonitors p =>
      rw [if_pos (.inl hMonitors), if_pos hMonitors, List.append_nil, ← hTracked hActive]
      show (releaseHeldKeysOnSlave _).filterMap Effect.key? = _
      rw [releaseHeldKeysOnSlave_keys, hHeld]
      rfl
  | escaped _ hMonitors hEscape p =>
      rw [hPoll] at hEscape
      rw [if_pos (.inr hEscape), if_neg hMonitors, List.foldl_append, ← hTracked hActive]
      show (releaseHeldKeysOnSlave _ ++ [Effect.disconnectCurrent]).filterMap Effect.key? = _
      rw [List.filterMap_append, releaseHeldKeysOnSlave_keys, hPoll]
      simp [Effect.key?]
  | kept hOwned =>
      rw [hSound.ready_owned, hSlave] at hOwned
      cases hOwned
  | crossed => cases hPumped
  | forwarded hOwned => exact absurd (hOwned.symm.trans hPumped) Bool.noConfusion
  | returned _ hMonitors hEscape p =>
      rw [hPoll] at hEscape
      have hNot : ¬ (f.env.status.peerMonitors = [] ∨
          escapeComboHeld ((d.pending f).keys.foldl trackKey d.app.inputHeldKeys) = true) := by
        rintro (hNone | hHotkey)
        · exact hMonitors hNone
        · exact absurd (hEscape.symm.trans hHotkey) Bool.noConfusion
      rw [if_neg hNot, if_neg hMonitors, List.foldl_append, ← hTracked hActive, List.filterMap_append,
        List.filterMap_append, forwardFrame_keys, releaseHeldKeysOnSlave_keys, polled_pending, hPoll]
      simp [Effect.key?]

/-- In every run, each time a live connection hands the input back to Master:
no key is left pressed on the Slave if and only if every key that was
forwarded last as a press is still held, that is, it was pressed by the last
event of some virtual key. -/
theorem handback_releases (localMonitors : List MonitorInfo) (arrangement : UInt64 → Option ArrangementEntry)
    (lastRole : Option Role) (frames : List Frame) (f : Frame) :
    let d := frames.foldl Desk.frame (.start localMonitors arrangement lastRole)
    Live d.app f → d.app.inputOwnedByMaster = false → (d.pumped f).app.inputOwnedByMaster = true →
    ((∀ key, ¬ DownOnSlave ((d.pumped f).sent.filterMap Effect.key?) key) ↔
      ∀ key, DownOnSlave (d.toldKeys f) key → StillHeld (d.heardKeys f) key) := by
  intro d hLive hSlave hMaster
  have hSound := desk_sound localMonitors arrangement lastRole frames
  have hTracked := tracked_run localMonitors arrangement lastRole frames
  have hReleased : ∀ e ∈ ((d.heardKeys f).foldl trackKey []).map HeldKey.release, KeyEvent.down e = false := by
    intro e hE
    obtain ⟨k, -, rfl⟩ := List.mem_map.mp hE
    rfl
  rw [handback_keys hSound hTracked hLive hSlave hMaster]
  refine forall_congr' fun key => ?_
  rw [DownOnSlave, down_append_released hReleased, ← DownOnSlave, not_and]
  refine imp_congr_right fun _ => ?_
  constructor
  · intro hNone
    by_contra hHeld
    refine hNone fun e hE hKey => hHeld ?_
    obtain ⟨k, hK, rfl⟩ := List.mem_map.mp hE
    exact ⟨k.vk, hKey ▸ (mem_foldl_trackKey _ k).mp hK⟩
  · rintro ⟨vk, hLast⟩ hNone
    exact hNone _ (List.mem_map.mpr ⟨⟨vk, key.1, key.2⟩, (mem_foldl_trackKey _ _).mpr hLast, rfl⟩) rfl

open SideBySide in
/-- A key held alone is released at the return crossing. -/
theorem handback_releases_one :
    let frames := [during [], swipeOut, during [.keyboard true ⟨0x41, 0x1E, false, false⟩]]
    let d := frames.foldl Desk.frame desk
    ((∀ key, ¬ DownOnSlave ((d.pumped swipeBack).sent.filterMap Effect.key?) key) ↔
      ∀ key, DownOnSlave (d.toldKeys swipeBack) key → StillHeld (d.heardKeys swipeBack) key) :=
  handback_releases [screen] (fun _ => some ⟨7, .right, 0⟩) (some .master)
    [during [], swipeOut, during [.keyboard true ⟨0x41, 0x1E, false, false⟩]] swipeBack
    (by decide +kernel) (by decide +kernel) (by decide +kernel)

open SideBySide in
/-- Both Enter keys have one virtual key. With both of them pressed, the
release of the one on the keypad makes Master forget the other, and it stays
down on the Slave. -/
theorem handback_strands_enter :
    let frames := [during [], swipeOut, during [.keyboard true ⟨0x0D, 0x1C, false, false⟩,
      .keyboard true ⟨0x0D, 0x1C, true, false⟩, .keyboard false ⟨0x0D, 0x1C, true, false⟩]]
    let d := frames.foldl Desk.frame desk
    Live d.app swipeBack ∧ d.app.inputOwnedByMaster = false ∧
      (d.pumped swipeBack).app.inputOwnedByMaster = true ∧
      DownOnSlave ((d.pumped swipeBack).sent.filterMap Effect.key?) (0x1C, false) := by
  decide +kernel

end NoCapKVM.App
