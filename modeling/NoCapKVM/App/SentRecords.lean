import NoCapKVM.App.AudioNonces
import NoCapKVM.App.Station
import NoCapKVM.Discovery.PlainSodium

/-! What the pumps record as sent. They record it next to the send and do not look at its
result. -/
namespace NoCapKVM.App

open Audio Clipboard Discovery

variable {ι : Type} {na : Sodium UInt8} {stb : Stb ι}

/-- A value recorded now that was not recorded before. -/
def newly {α : Type} [DecidableEq α] (before after : Option α) : Option α :=
  if after = before then none else after

def AudioFormat.settings (sendEnabled : Bool) (format : AudioFormat) : AudioSettings :=
  ⟨sendEnabled, format.sampleRate, format.bitDepth⟩

/-- The settings recorded as reported on this connection. -/
def SlaveAudio.reported (s : SlaveAudio) : Option AudioSettings :=
  if s.audioStatusReported then some (AudioFormat.settings s.audioLastReportedSendEnabled s.audioLastReportedFormat)
  else none

/-- The settings recorded as requested on this connection. -/
def MasterAudio.requested (s : MasterAudio) : Option AudioSettings :=
  if s.audioMasterControlSent then some (AudioFormat.settings s.audioMasterLastSentEnabled s.audioMasterLastSentFormat)
  else none

namespace Station

/-- The clipboard once a pass has dealt with the pending content. -/
def taken (stb : Stb ι) (f : ClipboardFrame) (taking : List ThreadOp) (s : Station ι) : ClipboardState ι :=
  match s.connection with
  | some c => if c.connected then applyPending stb f (afterOps taking c).pendingClipboard s.clipboard else s.clipboard
  | none => s.clipboard

section

variable (na : Sodium UInt8) (stb : Stb ι) (role : Role)

/-- The message of the value that a move records as sent. A pass over the
clipboard does not record as sent what it skips as an echo. -/
def recorded (s : Station ι) (m : StationMove ι) : Option (UInt8 × List UInt8) :=
  let s' := (stationStep na stb role s m).1
  match m with
  | .pumpAudio _ _ _ =>
      match role with
      | .slave =>
          (newly s.slave.reported s'.slave.reported).map fun v => (kMsgAudioStatus, encodeAudioSettings v)
      | .master =>
          (newly s.master.requested s'.master.requested).map fun v => (kMsgAudioControl, encodeAudioSettings v)
  | .pumpClipboard f _ taking _ _ =>
      ((newly (s.taken stb f taking).seen s'.clipboard.seen).filter fun c => s'.clipboard.applied ≠ some c).map
        fun c => (clipboardMsgType c, c.data)
  | _ => none

end

end Station

section Messages

variable (b : Bool) (s : SlaveAudio)

end Messages

/-- It sends a message in the same cases, with the same settings. -/
theorem pushControl_messages (info : ConnectionInfo) (s : MasterAudio) :
    (pushControl info s).2.filterMap PlaybackEffect.message? =
      if s.audioMasterOverridden && wantSendControl s then
        [(kMsgAudioControl, encodeAudioSettings
          (AudioFormat.settings s.audioMasterDesiredSendEnabled s.audioMasterDesiredFormat))]
      else [] := by
  unfold pushControl
  cases s.audioMasterOverridden <;> cases wantSendControl s <;> rfl

theorem endMasterAudio_messages (s : MasterAudio) : (endMasterAudio s).2.filterMap PlaybackEffect.message? = [] := by
  unfold endMasterAudio stopMasterAudio
  cases s.audioActive <;> cases s.audioPlayback <;> cases s.audioRecvChannel <;> rfl

theorem playPackets_messages (f : MasterFrame) (s : MasterAudio) :
    (playPackets na f s).2.filterMap PlaybackEffect.message? = [] := by
  unfold playPackets sampleWindows
  split
  · simp only
    split <;> rfl
  · rfl

/-- Nor does starting the playback. -/
theorem startMasterAudio_messages (info : ConnectionInfo) (f : MasterFrame) (formatChanged : Bool) (s : MasterAudio) :
    (startMasterAudio na info f formatChanged s).2.filterMap PlaybackEffect.message? = [] := by
  unfold startMasterAudio
  cases s.audioPlayback <;> cases s.audioRecvChannel <;> rfl

/-- A frame sends its request and nothing else. -/
theorem pumpMasterConnected_messages (info : ConnectionInfo) (f : MasterFrame) (s : MasterAudio) :
    (pumpMasterConnected na info f s).2.filterMap PlaybackEffect.message? =
      (pushControl info s).2.filterMap PlaybackEffect.message? := by
  unfold pumpMasterConnected
  simp only
  split
  · rw [List.filterMap_append, endMasterAudio_messages, List.append_nil]
  · simp only [List.filterMap_append, playPackets_messages, List.append_nil]
    split
    · rw [startMasterAudio_messages, List.append_nil]
    · rw [List.filterMap_nil, List.append_nil]

namespace Station

variable {role : Role}

end Station

section Run

variable (na : Sodium UInt8) (stb : Stb ι) (role : Role) (platform : Platform)

end Run

end NoCapKVM.App
