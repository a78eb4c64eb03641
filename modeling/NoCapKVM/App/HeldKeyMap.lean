import NoCapKVM.App.Deliveries
import NoCapKVM.Container.KeyedList

/-! The held keys as a map from virtual keys to the presses that were their last
events, over every run of the pump. -/
open NoCapKVM.Topology
namespace NoCapKVM.App

open Discovery (ConnectionInfo MonitorInfo)
open Input EventLog

/-- No two held keys have one virtual key. -/
def Distinct (held : List HeldKey) : Prop :=
  held.Pairwise fun h h' => h.vk ≠ h'.vk

def KeyEvent.pressed (e : KeyEvent) : HeldKey :=
  ⟨e.vk, e.scancode, e.extended⟩

/-- What an event leaves held under its virtual key. -/
def KeyEvent.leaves (e : KeyEvent) : Option HeldKey :=
  if e.down then some (KeyEvent.pressed e) else none

/-- Refreshing a held key puts it in the place of the one with its
virtual key. -/
theorem refreshHeldKey_eq (k : HeldKey) (held : List HeldKey) :
    refreshHeldKey k held = KeyedList.put HeldKey.vk k held := by
  induction held with
  | nil => rfl
  | cons h held ih => rw [refreshHeldKey, KeyedList.put, ih]

theorem Distinct.track {held : List HeldKey} (h : Distinct held) (e : KeyEvent) : Distinct (trackKey held e) := by
  unfold trackKey
  split
  · rw [refreshHeldKey_eq]
    exact KeyedList.pairwise_put h _
  · exact List.Pairwise.sublist List.eraseP_sublist h

/-- A step of the loop overrides the map at the event's virtual key. -/
theorem lookup_trackKey {held : List HeldKey} (h : Distinct held) (e : KeyEvent) :
    KeyedList.lookup HeldKey.vk (trackKey held e) =
      Function.update (KeyedList.lookup HeldKey.vk held) e.vk (KeyEvent.leaves e) := by
  unfold trackKey KeyEvent.leaves
  split
  · rw [refreshHeldKey_eq]
    exact KeyedList.lookup_put HeldKey.vk (KeyEvent.pressed e) held
  · exact KeyedList.lookup_eraseP h e.vk

/-- So no two held keys have the same virtual key. -/
theorem foldl_trackKey_distinct (log : List KeyEvent) : Distinct (log.foldl trackKey []) :=
  List.foldlRecOn log trackKey List.Pairwise.nil fun _ h e _ => h.track e

/-- Under each virtual key, what its last event leaves. -/
theorem lookup_foldl_trackKey (log : List KeyEvent) (vk : UInt32) :
    KeyedList.lookup HeldKey.vk (log.foldl trackKey []) vk = (last? KeyEvent.vk log vk).bind KeyEvent.leaves := by
  induction log using List.reverseRecOn with
  | nil => rfl
  | append_singleton log e ih =>
      rw [List.foldl_concat, lookup_trackKey (foldl_trackKey_distinct log), Function.update_apply, last?_concat]
      by_cases hVk : vk = e.vk
      · rw [if_pos hVk, if_pos hVk.symm]
        rfl
      · rw [if_neg hVk, if_neg (Ne.symm hVk), ih]

/-- A key is held when the last event of its virtual key pressed it. -/
theorem mem_foldl_trackKey (log : List KeyEvent) (h : HeldKey) :
    h ∈ log.foldl trackKey [] ↔ last? KeyEvent.vk log h.vk = some ⟨h.vk, h.scancode, true, h.extended⟩ := by
  rw [KeyedList.mem_iff_lookup (foldl_trackKey_distinct log), lookup_foldl_trackKey, Option.bind_eq_some_iff]
  constructor
  · rintro ⟨⟨vk, scancode, down, extended⟩, hLast, hLeaves⟩
    cases down with
    | true =>
        cases hLeaves
        exact hLast
    | false => cases hLeaves
  · intro hLast
    exact ⟨_, hLast, rfl⟩

/-- Of each part of the hotkey some key was pressed by its last event. -/
def HotkeyDown (log : List KeyEvent) : Prop :=
  ∀ vks ∈ [[vkControl, vkLControl, vkRControl], [vkMenu, vkLMenu, vkRMenu], [vkShift, vkLShift, vkRShift],
      [vkEscape]], ∃ vk ∈ vks, Down KeyEvent.vk KeyEvent.down log vk

/-- One of some keys is held exactly when it was pressed and not
released since. -/
theorem any_foldl_trackKey (log : List KeyEvent) (vks : List UInt32) :
    ((log.foldl trackKey []).any fun k => vks.contains k.vk) = true ↔
      ∃ vk ∈ vks, Down KeyEvent.vk KeyEvent.down log vk := by
  rw [List.any_eq_true]
  constructor
  · rintro ⟨h, hMem, hVk⟩
    refine ⟨h.vk, List.contains_iff_mem.mp hVk, ?_⟩
    rw [Down, (mem_foldl_trackKey log h).mp hMem]
    rfl
  · rintro ⟨vk, hMem, hDown⟩
    obtain ⟨e, hLast, hPress⟩ := (Option.any_eq_true _ _).mp hDown
    obtain ⟨rfl, -⟩ := key_of_last? hLast
    refine ⟨KeyEvent.pressed e, (mem_foldl_trackKey log _).mpr ?_, List.contains_iff_mem.mpr hMem⟩
    rw [← hPress]
    exact hLast

/-- So the escape combination is held exactly when the events say so. -/
theorem escapeComboHeld_iff (log : List KeyEvent) :
    escapeComboHeld (log.foldl trackKey []) = true ↔ HotkeyDown log := by
  simp only [escapeComboHeld, HotkeyDown, Bool.and_eq_true, any_foldl_trackKey, List.forall_mem_cons,
    List.not_mem_nil, false_imp_iff, implies_true, and_true, and_assoc]

/-- The pump of the frame calls `deactivate_hook`, which clears
the held keys. -/
def AppState.ClearsKeys (state : AppState) (f : Frame) : Prop :=
  state.role = .master ∧ state.inputHookActive = true ∧ ¬ Live state f

instance (state : AppState) (f : Frame) : Decidable (state.ClearsKeys f) :=
  inferInstanceAs (Decidable (_ ∧ _))

/-- The pump of the frame comes to its tracking loop: on a connection, unless
the Slave has lost its displays while it owns the input. -/
def AppState.TracksKeys (state : AppState) (f : Frame) : Prop :=
  Live state f ∧ ((state.ready f).inputOwnedByMaster = true ∨ f.env.status.peerMonitors ≠ [])

instance (state : AppState) (f : Frame) : Decidable (state.TracksKeys f) :=
  inferInstanceAs (Decidable (_ ∧ _))

/-- The events that the tracking loop processes in the frame. -/
def AppState.trackedKeys (state : AppState) (f : Frame) : List KeyEvent :=
  if state.TracksKeys f then (pollFrame (state.ready f)).1.keys else []

/-- The events that the tracking loop has processed since the held keys were
cleared last, in a run that starts in `state` with the log `log`. An event
counts when the loop comes to it, also one that the hook captured before the
keys were cleared. -/
def keysSinceCleared (state : AppState) (log : List KeyEvent) : List Frame → List KeyEvent
  | [] => log
  | f :: frames =>
      keysSinceCleared (state.frame f) (if state.ClearsKeys f then [] else log ++ state.trackedKeys f) frames

/-- A call of the pump clears the held keys, or goes on with the events
of its frame. -/
theorem pumped_heldKeys (state : AppState) (f : Frame) :
    (state.pumped f).inputHeldKeys =
      if state.ClearsKeys f then [] else (state.trackedKeys f).foldl trackKey state.inputHeldKeys := by
  unfold AppState.pumped
  by_cases hLive : Live state f
  · have hOutcome := pumpInput_outcome hLive
    rw [if_neg fun hClears => hClears.2.2 hLive, AppState.trackedKeys, ← ready_heldKeys state f]
    split
    case isTrue hTracks => exact hOutcome.heldKeys hTracks.2
    case isFalse hNot => exact hOutcome.heldKeys_unpolled fun hPolls => hNot ⟨hLive, hPolls⟩
  · have hNot : ¬ state.TracksKeys f := fun hTracks => hLive hTracks.1
    rw [pumpInput_idle hLive, AppState.trackedKeys, if_neg hNot]
    by_cases hClears : state.ClearsKeys f
    · rw [if_pos hClears, if_pos ⟨hClears.1, hClears.2.1⟩]
      rfl
    · rw [if_neg hClears, if_neg fun hBoth => hClears ⟨hBoth.1, hBoth.2, hLive⟩]
      rfl

/-- The held keys of a run are those of the log. -/
theorem run_heldKeys {state : AppState} {log : List KeyEvent} (h : state.inputHeldKeys = log.foldl trackKey [])
    (frames : List Frame) :
    (frames.foldl AppState.frame state).inputHeldKeys = (keysSinceCleared state log frames).foldl trackKey [] := by
  induction frames generalizing state log with
  | nil => exact h
  | cons f frames ih =>
      refine ih ?_
      rw [frame_heldKeys, pumped_heldKeys]
      split
      · rfl
      · rw [List.foldl_append, h]

/-- At the start no key is held. -/
theorem start_heldKeys (localMonitors : List MonitorInfo) (arrangement : UInt64 → Option ArrangementEntry)
    (lastRole : Option Role) : (AppState.start localMonitors arrangement lastRole).inputHeldKeys = [] := by
  cases lastRole <;> rfl

/-- The held keys after the tracking loop, in a frame of a run. -/
theorem tracked_heldKeys {start : AppState} (hStart : start.inputHeldKeys = []) (frames : List Frame) (f : Frame) :
    let state := frames.foldl AppState.frame start
    (pollFrame (state.ready f)).2.inputHeldKeys =
      (keysSinceCleared start [] frames ++ (pollFrame (state.ready f)).1.keys).foldl trackKey [] := by
  intro state
  have hRun : state.inputHeldKeys = (keysSinceCleared start [] frames).foldl trackKey [] :=
    run_heldKeys hStart frames
  rw [List.foldl_append, ← hRun, ← ready_heldKeys state f]
  rfl

theorem disconnectCurrent_not_forwarded (bc : BoundaryCheck) (frame : InputFrame) :
    .disconnectCurrent ∉ forwardFrame bc frame := by
  simp [forwardFrame, sendMouseAbsolute, sendMouseButton, sendMouseWheel, sendKey]

theorem disconnectCurrent_not_released (held : List HeldKey) :
    .disconnectCurrent ∉ releaseHeldKeysOnSlave held := by
  simp [releaseHeldKeysOnSlave, sendKey, sendModifierSyncMask]

/-- Only the hotkey ends the connection. -/
theorem Outcome.disconnects {state : AppState} {info : ConnectionInfo} {mask : UInt8} {r : AppState × List Effect}
    (h : Outcome state info mask r) :
    .disconnectCurrent ∈ r.2 ↔ state.inputOwnedByMaster = false ∧ info.peerMonitors ≠ [] ∧
      escapeComboHeld (pollFrame state).2.inputHeldKeys = true := by
  cases h with
  | displaysLost _ hMonitors => simp [hMonitors, disconnectCurrent_not_released]
  | escaped hOwned hMonitors hEscape => simp [hOwned, hMonitors, hEscape]
  | kept hOwned => simp [hOwned]
  | crossed hOwned => simp [hOwned, sendMouseAbsolute, sendModifierSyncMask, releaseHeldKeysLocally]
  | forwarded _ _ hEscape => simp [hEscape, disconnectCurrent_not_forwarded]
  | returned _ _ hEscape => simp [hEscape, disconnectCurrent_not_forwarded, disconnectCurrent_not_released]

/-- In every run, a frame ends the connection if and only if the Slave owns
the input and has displays, and the last events since the held keys were
cleared press the hotkey. -/
theorem hotkey_reads_last_events (localMonitors : List MonitorInfo)
    (arrangement : UInt64 → Option ArrangementEntry) (lastRole : Option Role) (frames : List Frame) (f : Frame) :
    let start := AppState.start localMonitors arrangement lastRole
    let state := frames.foldl AppState.frame start
    .disconnectCurrent ∈ (pumpInput (state.before f) f.env).2 ↔
      Live state f ∧ state.inputOwnedByMaster = false ∧ f.env.status.peerMonitors ≠ [] ∧
        HotkeyDown (keysSinceCleared start [] frames ++ (pollFrame (state.ready f)).1.keys) := by
  intro start state
  have hSound : Sound state := sound_run localMonitors arrangement lastRole frames
  rw [← escapeComboHeld_iff, ← tracked_heldKeys (start_heldKeys _ _ _) frames f]
  by_cases hLive : Live state f
  · rw [(pumpInput_outcome hLive).disconnects, hSound.ready_owned f, and_iff_right hLive]
  · rw [pumpInput_idle hLive]
    exact iff_of_false List.not_mem_nil fun h => hLive h.1

end NoCapKVM.App
