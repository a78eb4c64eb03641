import NoCapKVM.App.SentRecords
import NoCapKVM.Discovery.UserSettings

/-! The request that a Master has saved, from the file to the first frame with a Slave. -/
namespace NoCapKVM.App

open Audio Discovery

/-- What `main` takes from the settings for a Master. -/
def MasterAudio.startUp (settings : UserSettings) : MasterAudio where
  audioMasterOverridden := settings.masterAudioOverridden
  audioMasterDesiredSendEnabled := settings.masterAudioSendEnabled
  audioMasterDesiredFormat := settings.masterAudioFormat

def MasterFrame.connected (f : MasterFrame) : Bool :=
  f.tcpServer.any fun info => info.state = .connected

variable (na : Sodium UInt8)

def pumpFrames : List MasterFrame → MasterAudio → MasterPumped
  | [], state => (state, [])
  | f :: frames, state =>
      let (state, effects) := pumpMaster na f state
      let (state, rest) := pumpFrames frames state
      (state, effects ++ rest)

/-- The Slave has been sent the saved request and nothing else, and the Master
still wants what was saved. -/
def Restored (saved : UserSettings) (pumped : MasterPumped) : Prop :=
  pumped.2.filterMap PlaybackEffect.message? = [(kMsgAudioControl, encodeAudioSettings
    ⟨saved.masterAudioSendEnabled, saved.masterAudioFormat.sampleRate, saved.masterAudioFormat.bitDepth⟩)] ∧
  pumped.1.audioMasterDesiredSendEnabled = saved.masterAudioSendEnabled ∧
  pumped.1.audioMasterDesiredFormat = saved.masterAudioFormat

variable {na}

theorem pumpMaster_unconnected {f : MasterFrame} (h : f.connected = false) (state : MasterAudio) :
    pumpMaster na f state = pumpMasterUnconnected state := by
  unfold MasterFrame.connected at h
  cases hServer : f.tcpServer with
  | none => simp only [pumpMaster, hServer]
  | some info =>
      simp only [hServer, Option.any_some, decide_eq_false_iff_not] at h
      simp only [pumpMaster, hServer, h, if_false]

/-- A frame on a connection is that of a connected Master. -/
theorem pumpMaster_connected {f : MasterFrame} (h : f.connected = true) (state : MasterAudio) :
    ∃ info, pumpMaster na f state = pumpMasterConnected na info f state := by
  unfold MasterFrame.connected at h
  cases hServer : f.tcpServer with
  | none => simp [hServer] at h
  | some info =>
      simp only [hServer, Option.any_some, decide_eq_true_eq] at h
      exact ⟨info, by simp only [pumpMaster, hServer, h, if_true]⟩

/-- A frame without a connection drops the request. -/
theorem pumpMasterUnconnected_overridden (state : MasterAudio) :
    (pumpMasterUnconnected state).1.audioMasterOverridden = false := rfl

theorem pumpMasterUnconnected_messages (state : MasterAudio) :
    (pumpMasterUnconnected state).2.filterMap PlaybackEffect.message? = [] :=
  endMasterAudio_messages state

/-- Frames without a connection send nothing. -/
theorem pumpFrames_messages {waiting : List MasterFrame} (hWaiting : ∀ w ∈ waiting, w.connected = false)
    (state : MasterAudio) : (pumpFrames na waiting state).2.filterMap PlaybackEffect.message? = [] := by
  induction waiting generalizing state with
  | nil => rfl
  | cons w waiting ih =>
      rw [List.forall_mem_cons] at hWaiting
      simp only [pumpFrames, pumpMaster_unconnected hWaiting.1, List.filterMap_append, pumpMasterUnconnected_messages]
      exact ih hWaiting.2 _

/-- One frame is enough, and no later one sets the request again. -/
theorem pumpFrames_overridden {waiting : List MasterFrame} (hWaiting : ∀ w ∈ waiting, w.connected = false)
    {state : MasterAudio} (h : waiting ≠ [] ∨ state.audioMasterOverridden = false) :
    (pumpFrames na waiting state).1.audioMasterOverridden = false := by
  induction waiting generalizing state with
  | nil => exact h.resolve_left (absurd rfl)
  | cons w waiting ih =>
      rw [List.forall_mem_cons] at hWaiting
      simp only [pumpFrames, pumpMaster_unconnected hWaiting.1]
      exact ih hWaiting.2 (.inr (pumpMasterUnconnected_overridden state))

/-- One more frame comes after the run of the frames before it. -/
theorem pumpFrames_concat (frames : List MasterFrame) (f : MasterFrame) (state : MasterAudio) :
    pumpFrames na (frames ++ [f]) state =
      ((pumpMaster na f (pumpFrames na frames state).1).1,
        (pumpFrames na frames state).2 ++ (pumpMaster na f (pumpFrames na frames state).1).2) := by
  induction frames generalizing state with
  | nil => simp [pumpFrames]
  | cons first frames ih => simp only [List.cons_append, pumpFrames, ih, List.append_assoc]

def MasterAudio.desired (state : MasterAudio) : Bool × AudioFormat :=
  (state.audioMasterDesiredSendEnabled, state.audioMasterDesiredFormat)

theorem endMasterAudio_desired (state : MasterAudio) : (endMasterAudio state).1.desired = state.desired := by
  unfold endMasterAudio
  split <;> rfl

theorem playPackets_desired (f : MasterFrame) (state : MasterAudio) :
    (playPackets na f state).1.desired = state.desired := by
  unfold playPackets sampleWindows
  split
  · dsimp only
    split <;> rfl
  · rfl

/-- What the Master wants is settled before the stream is looked at. -/
theorem pumpMasterConnected_desired (info : ConnectionInfo) (f : MasterFrame) (state : MasterAudio) :
    (pumpMasterConnected na info f state).1.desired = (pushControl info state).1.desired := by
  unfold pumpMasterConnected
  dsimp only
  split
  · exact endMasterAudio_desired _
  · rw [playPackets_desired]
    split <;> rfl

/-- A request that has not been sent on this connection goes out
with the frame. -/
theorem pushControl_fresh (info : ConnectionInfo) {state : MasterAudio} (hOverridden : state.audioMasterOverridden = true)
    (hUnsent : state.audioMasterControlSent = false) : (pushControl info state).1.desired = state.desired := by
  simp [pushControl, wantSendControl, hOverridden, hUnsent, MasterAudio.desired]

/-- The first frame on a connection sends the request that was saved. -/
theorem restored_at_once {f : MasterFrame} (hUp : f.connected = true) {saved : UserSettings}
    (hOverridden : saved.masterAudioOverridden = true) :
    Restored saved (pumpMaster na f (.startUp saved)) := by
  obtain ⟨info, hPump⟩ := @pumpMaster_connected na f hUp (.startUp saved)
  have hDesired := @pumpMasterConnected_desired na info f (.startUp saved)
  rw [pushControl_fresh info hOverridden rfl] at hDesired
  obtain ⟨hSend, hFormat⟩ := Prod.mk.inj hDesired
  rw [hPump]
  refine ⟨?_, hSend, hFormat⟩
  rw [pumpMasterConnected_messages, pushControl_messages]
  simp [MasterAudio.startUp, hOverridden, wantSendControl, AudioFormat.settings]

/-- A Master that mirrors the Slave requests nothing. -/
theorem unrequested {f : MasterFrame} (hUp : f.connected = true) {state : MasterAudio}
    (hMirrors : state.audioMasterOverridden = false) :
    (pumpMaster na f state).2.filterMap PlaybackEffect.message? = [] := by
  obtain ⟨info, hPump⟩ := @pumpMaster_connected na f hUp state
  rw [hPump, pumpMasterConnected_messages, pushControl_messages]
  simp [hMirrors]

/-- The saved request reaches the first connection just if no frame has been
before it. -/
theorem saved_override_iff {saved : UserSettings} (hOverridden : saved.masterAudioOverridden = true)
    (hSlave : validFormat saved.slaveAudioFormat = true) (hMaster : validFormat saved.masterAudioFormat = true)
    {waiting : List MasterFrame} (hWaiting : ∀ w ∈ waiting, w.connected = false) {f : MasterFrame}
    (hUp : f.connected = true) :
    Restored saved (pumpFrames na (waiting ++ [f]) (.startUp (loadUserSettings (saveUserSettings saved)))) ↔
      waiting = [] := by
  have hLoaded : MasterAudio.startUp (loadUserSettings (saveUserSettings saved)) = .startUp saved := by
    rw [loadUserSettings_saveUserSettings hSlave hMaster]
    rfl
  rw [hLoaded, pumpFrames_concat]
  constructor
  · intro hRestored
    by_contra hNe
    have hSent := hRestored.1
    rw [List.filterMap_append, pumpFrames_messages hWaiting,
      unrequested hUp (pumpFrames_overridden hWaiting (.inl hNe))] at hSent
    cases hSent
  · intro hFirst
    subst hFirst
    exact restored_at_once hUp hOverridden

/-- 24 kHz and 8 bits, asked for before the program was ended. -/
def smallStream : UserSettings :=
  { masterAudioOverridden := true, masterAudioFormat := ⟨24000, 8⟩ }

def upFrame : MasterFrame := { tcpServer := some { state := .connected } }

/-- The saved request for 24 kHz and 8 bits is sent in the first frame
with a Slave. -/
theorem saved_override_first :
    Restored smallStream (pumpFrames plainSodium ([] ++ [upFrame])
      (.startUp (loadUserSettings (saveUserSettings smallStream)))) :=
  (saved_override_iff rfl (by decide) (by decide) (by simp) rfl).mpr rfl

/-- The server listens in one frame and has its Slave in the next.
Nothing is sent. -/
theorem listening_drops_override :
    smallStream.masterAudioOverridden = true ∧ validFormat smallStream.slaveAudioFormat = true ∧
    validFormat smallStream.masterAudioFormat = true ∧
    ¬ Restored smallStream (pumpFrames plainSodium [{ tcpServer := some {} }, upFrame]
      (.startUp (loadUserSettings (saveUserSettings smallStream)))) := by
  refine ⟨rfl, by decide, by decide, ?_⟩
  rw [loadUserSettings_saveUserSettings (by decide) (by decide)]
  rintro ⟨hSent, -, -⟩
  cases hSent

end NoCapKVM.App
