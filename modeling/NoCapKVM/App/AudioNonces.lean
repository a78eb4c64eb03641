import NoCapKVM.App.AudioPump
import NoCapKVM.Discovery.PlainSodium

/-! The nonces of the audio stream. The counter of a channel starts at 0, and the pump
makes a new channel under the same key whenever it has torn the old one down. -/
namespace NoCapKVM.App

open Audio Discovery

variable {na : Sodium UInt8} {key : Key32 UInt8}

/-- What happens to a Slave's audio: a frame of the pump, a change of the
settings by the user, a packet from the capture device. -/
inductive AudioMove where
  | frame (f : SlaveFrame)
  | edit (sendEnabled : Bool) (format : AudioFormat)
  | captured (data : List UInt8)

namespace SlaveAudio

/-- The channel that a running device sends through. -/
def sending (s : SlaveAudio) : Option AudioChannel :=
  match s.audioCapture with
  -- The pointer in its callback is to this channel: only `stop_slave_audio` destroys
  -- a channel, and the device before it.
  | some ⟨some _⟩ => s.audioSendChannel
  | _ => none

/-- The callback of the device. -/
def capture (s : SlaveAudio) (data : List UInt8) : Option Packet × SlaveAudio :=
  match s.sending with
  | some channel =>
      let (packet, channel) := channel.sendTo data
      (some packet, { s with audioSendChannel := some channel })
  | none => (none, s)

end SlaveAudio

/-- The packets encrypted by a move, and the state after it. -/
def audioStep (na : Sodium UInt8) (s : SlaveAudio) : AudioMove → Option Packet × SlaveAudio
  | .frame f => (none, (pumpSlave na f s).1)
  | .edit sendEnabled format => (none, { s with audioSendEnabled := sendEnabled, audioDesiredFormat := format })
  | .captured data => s.capture data

/-- A whole run, newest move first. -/
def audioRun (na : Sodium UInt8) : List AudioMove → List Packet × SlaveAudio
  | [] => ([], {})
  | m :: past =>
      let (packets, s) := audioRun na past
      let (packet, s) := audioStep na s m
      (packet.toList ++ packets, s)

/-- The nonces used under a key, newest first. -/
def nonces (na : Sodium UInt8) (key : Key32 UInt8) (past : List AudioMove) : List UInt32 :=
  ((audioRun na past).1.filter (·.key = key)).map (·.seq)

/-- The frame finds the stream running and no use for it, or
cannot restart it. -/
def tearsDown (s : SlaveAudio) (f : SlaveFrame) : Bool :=
  s.audioActive &&
    match f.tcpClient with
    | none => true
    | some info =>
        let wanted := applyMasterControl info s
        info.state ≠ .connected || !wanted.audioSendEnabled || info.peerAudioPort = 0 ||
          (wanted.audioActiveFormat ≠ wanted.audioDesiredFormat &&
            wanted.audioSlaveStartBackoff.shouldAttempt f.now && !f.started)

/-- The frame starts the capture, for the first time or again with
another format. -/
def startsStream (s : SlaveAudio) (f : SlaveFrame) : Bool :=
  match f.tcpClient with
  | none => false
  | some info =>
      let wanted := applyMasterControl info s
      info.state = .connected && wanted.audioSendEnabled && info.peerAudioPort ≠ 0 &&
        (!s.audioActive || wanted.audioActiveFormat ≠ wanted.audioDesiredFormat) &&
        wanted.audioSlaveStartBackoff.shouldAttempt f.now && f.started

/-- A frame has torn the stream down after a packet under the key. -/
def Interrupted (na : Sodium UInt8) (key : Key32 UInt8) : List AudioMove → Prop
  | .frame f :: past =>
      (tearsDown (audioRun na past).2 f = true ∧ nonces na key past ≠ []) ∨ Interrupted na key past
  | _ :: past => Interrupted na key past
  | [] => False

/-- A packet under the key was captured after that. -/
def Resumed (na : Sodium UInt8) (key : Key32 UInt8) : List AudioMove → Prop
  | .captured _ :: past =>
      (Interrupted na key past ∧ ∃ channel, (audioRun na past).2.sending = some channel ∧ channel.key = key) ∨
        Resumed na key past
  | _ :: past => Resumed na key past
  | [] => False

/-- Between frames: the device runs with a channel, or there is neither. -/
structure SlaveAudio.Steady (s : SlaveAudio) : Prop where
  running : s.audioActive = true → s.sending = s.audioSendChannel ∧ s.audioSendChannel.isSome = true
  idle : s.audioActive = false → s.audioCapture = none ∧ s.audioSendChannel = none

def SlaveAudio.Idle (s : SlaveAudio) : Prop :=
  s.audioActive = false ∧ s.audioCapture = none ∧ s.audioSendChannel = none

/-- Without a device and without a channel, both are in step. -/
theorem SlaveAudio.Idle.steady {s : SlaveAudio} (h : s.Idle) : s.Steady where
  running hActive := by
    rw [h.1] at hActive
    cases hActive
  idle _ := h.2

/-- A stop takes both down. -/
theorem stopSlaveAudio_idle (s : SlaveAudio) : SlaveAudio.Idle { (stopSlaveAudio s).1 with audioActive := false } :=
  ⟨rfl, rfl, rfl⟩

/-- The end of the audio leaves neither, whatever was running. -/
theorem endSlaveAudio_idle {s : SlaveAudio} (h : s.Steady) : (endSlaveAudio s).1.Idle := by
  unfold endSlaveAudio
  split
  · exact stopSlaveAudio_idle s
  · next hActive =>
    have hIdle := eq_false_of_ne_true hActive
    exact ⟨hIdle, h.idle hIdle⟩

/-- So does a frame without a connection. -/
theorem pumpSlaveUnconnected_idle {s : SlaveAudio} (h : s.Steady) : (pumpSlaveUnconnected s).1.Idle :=
  endSlaveAudio_idle h

/-- Only what was reported changes. -/
theorem reportStatus_fst (s : SlaveAudio) : ∃ reported sendEnabled format,
    (reportStatus s).1 = { s with
      audioStatusReported := reported
      audioLastReportedSendEnabled := sendEnabled
      audioLastReportedFormat := format } := by
  unfold reportStatus
  split
  · exact ⟨_, _, _, rfl⟩
  · exact ⟨_, _, _, rfl⟩

/-- Only the settings change. -/
theorem applyMasterControl_eq (info : ConnectionInfo) (s : SlaveAudio) : ∃ sendEnabled format seq,
    applyMasterControl info s = { s with
      audioSendEnabled := sendEnabled
      audioDesiredFormat := format
      audioLastAppliedMasterControlSeq := seq } := by
  unfold applyMasterControl
  split
  · exact ⟨_, _, _, rfl⟩
  · exact ⟨_, _, _, rfl⟩

/-- The capture runs with the channel that was there, or with a new one, and
sends to the address of the status. -/
def SlaveAudio.Started (na : Sodium UInt8) (s : SlaveAudio) (info : ConnectionInfo) (s' : SlaveAudio) : Prop :=
  s'.audioActive = true ∧
    s'.audioSendChannel = some (s.audioSendChannel.getD { key := deriveAudioKey na info.audioKey }) ∧
    ∃ format, s'.audioCapture = some ⟨some ⟨format, info.peerIp, info.peerAudioPort⟩⟩

/-- The same stream under other settings. -/
structure SlaveAudio.Kept (s s' : SlaveAudio) : Prop where
  active : s'.audioActive = s.audioActive
  capture : s'.audioCapture = s.audioCapture
  channel : s'.audioSendChannel = s.audioSendChannel

/-- What a frame does to the stream: it starts it, leaves it running, or
leaves none. -/
inductive StreamStep (na : Sodium UInt8) (s : SlaveAudio) (f : SlaveFrame) (s' : SlaveAudio) : Prop where
  | started (info : ConnectionInfo) (hClient : f.tcpClient = some info) (hStarts : startsStream s f = true)
      (hTears : tearsDown s f = false) (h : s.Started na info s')
  | kept (hStarts : startsStream s f = false) (hActive : s.audioActive = true) (hTears : tearsDown s f = false)
      (h : s.Kept s')
  | gone (hStarts : startsStream s f = false) (hTears : s.audioActive = true → tearsDown s f = true) (h : s'.Idle)

/-- A stream that was just started has both. -/
theorem SlaveAudio.Started.steady {s s' : SlaveAudio} {info : ConnectionInfo} (h : s.Started na info s') : s'.Steady := by
  obtain ⟨hActive, hChannel, format, hCapture⟩ := h
  refine ⟨fun _ => ⟨?_, by rw [hChannel]; rfl⟩, fun hIdle => ?_⟩
  · rw [SlaveAudio.sending, hCapture]
  · rw [hActive] at hIdle
    cases hIdle

/-- Other settings leave the stream as it was. -/
theorem SlaveAudio.Kept.steady {s s' : SlaveAudio} (h : s.Kept s') (hSteady : s.Steady) : s'.Steady where
  running hRuns := by
    rw [SlaveAudio.sending, h.capture, h.channel]
    exact hSteady.running (h.active.symm.trans hRuns)
  idle hIdle := by
    rw [h.capture, h.channel]
    exact hSteady.idle (h.active.symm.trans hIdle)

/-- A start that succeeds sends through the channel that was there, and makes
one only if there was none. -/
theorem startSlaveAudio_started {info : ConnectionInfo} {f : SlaveFrame} {formatChanged : Bool} {s : SlaveAudio}
    (hStarted : f.started = true) : s.Started na info (startSlaveAudio na info f formatChanged s).1 := by
  cases hChannel : s.audioSendChannel <;>
    simp [SlaveAudio.Started, startSlaveAudio, makeChannel, hChannel, hStarted]

/-- A start that fails leaves nothing behind. -/
theorem startSlaveAudio_failed {info : ConnectionInfo} {f : SlaveFrame} {formatChanged : Bool} {s : SlaveAudio}
    (hStarted : f.started = false) : (startSlaveAudio na info f formatChanged s).1.Idle := by
  simp only [startSlaveAudio, hStarted, Bool.false_eq_true, if_false]
  exact stopSlaveAudio_idle _

section Connected

variable {s : SlaveAudio} {f : SlaveFrame} {info : ConnectionInfo}

/-- On a connection the stream is torn down when sending is off, when the
Master has no port, or when another format cannot be started. -/
theorem tearsDown_connected (hClient : f.tcpClient = some info) (hUp : info.state = .connected) : tearsDown s f =
      (s.audioActive && (!(applyMasterControl info s).audioSendEnabled || info.peerAudioPort = 0 ||
        ((applyMasterControl info s).audioActiveFormat ≠ (applyMasterControl info s).audioDesiredFormat &&
          (applyMasterControl info s).audioSlaveStartBackoff.shouldAttempt f.now && !f.started))) := by
  simp [tearsDown, hClient, hUp]

/-- It is started when sending is on, the Master has a port, and nothing runs
in that format yet. -/
theorem startsStream_connected (hClient : f.tcpClient = some info) (hUp : info.state = .connected) :
    startsStream s f = ((applyMasterControl info s).audioSendEnabled && info.peerAudioPort ≠ 0 &&
      (!s.audioActive || (applyMasterControl info s).audioActiveFormat ≠ (applyMasterControl info s).audioDesiredFormat) &&
      (applyMasterControl info s).audioSlaveStartBackoff.shouldAttempt f.now && f.started) := by
  simp [startsStream, hClient, hUp]

end Connected

/-- A frame starts the stream, leaves it running, or leaves none. Nothing in
between outlives it. -/
theorem pumpSlave_stream (na : Sodium UInt8) {s : SlaveAudio} (h : s.Steady) (f : SlaveFrame) :
    StreamStep na s f (pumpSlave na f s).1 := by
  cases hClient : f.tcpClient with
  | none =>
      simp only [pumpSlave, hClient]
      refine .gone (by simp [startsStream, hClient]) ?_ (pumpSlaveUnconnected_idle h)
      intro hActive
      simp [tearsDown, hClient, hActive]
  | some info =>
      by_cases hUp : info.state = .connected
      · have hTears := tearsDown_connected (s := s) hClient hUp
        have hStarts := startsStream_connected (s := s) hClient hUp
        obtain ⟨sendEnabled, format, seq, hWanted⟩ := applyMasterControl_eq info s
        obtain ⟨_, _, _, hReported⟩ := reportStatus_fst (applyMasterControl info s)
        have hReacts := pumpSlaveConnected_reacts na info f s
        simp only [hWanted] at hTears hStarts hReported
        simp only [hWanted, hReported] at hReacts
        simp only [pumpSlave, hClient, hUp, if_true]
        generalize pumpSlaveConnected na info f s = r at hReacts ⊢
        cases hReacts with
        | unwanted hUnwanted =>
            refine .gone ?_ ?_ (endSlaveAudio_idle ⟨h.running, h.idle⟩)
            · rcases hUnwanted with hOff | hPort
              · simp [hStarts, show sendEnabled = false from hOff]
              · simp [hStarts, hPort]
            · intro hActive
              rcases hUnwanted with hOff | hPort
              · simp [hTears, hActive, show sendEnabled = false from hOff]
              · simp [hTears, hActive, hPort]
        | unchanged hSend hPort hActive hFormat =>
            refine .kept ?_ hActive ?_ ⟨rfl, rfl, rfl⟩
            · simp_all
            · simp_all
        | waiting hSend hPort hChanged hWait =>
            have hNot : startsStream s f = false := by simp_all
            cases hActive : s.audioActive with
            | true =>
                refine .kept hNot hActive ?_ ⟨hActive.symm, rfl, rfl⟩
                simp_all
            | false =>
                exact .gone hNot (fun hRuns => by simp [hActive] at hRuns) ⟨rfl, h.idle hActive⟩
        | starting formatChanged hSend hPort hChanged hAttempt =>
            cases hStarted : f.started with
            | true =>
                refine .started info hClient ?_ ?_ (startSlaveAudio_started hStarted)
                · cases hActive : s.audioActive <;> simp_all
                · simp_all
            | false =>
                refine .gone ?_ ?_ (startSlaveAudio_failed hStarted)
                · simp [hStarts, hStarted]
                · intro hActive
                  simp_all
      · simp only [pumpSlave, hClient, hUp, if_false]
        refine .gone (by simp [startsStream, hClient, hUp]) ?_ (pumpSlaveUnconnected_idle h)
        intro hActive
        simp [tearsDown, hClient, hActive, hUp]

/-- The stream after a frame: gone, or with the channel that it had, or with a
first one. -/
def StreamOutcome (s : SlaveAudio) (f : SlaveFrame) (s' : SlaveAudio) : Prop :=
  (tearsDown s f = true ∧ s'.Idle) ∨
    (tearsDown s f = false ∧ s'.Steady ∧ (s'.audioSendChannel = s.audioSendChannel ∨
      s.audioSendChannel = none ∧ ∃ k, s'.audioSendChannel = some { key := k }))

/-- So after a frame the channel is gone, or is the one from before, or counts
from zero. -/
theorem pumpSlave_outcome (na : Sodium UInt8) {s : SlaveAudio} (h : s.Steady) (f : SlaveFrame) :
    StreamOutcome s f (pumpSlave na f s).1 := by
  cases pumpSlave_stream na h f with
  | started info hClient hStarts hTears hStarted =>
      refine .inr ⟨hTears, hStarted.steady, ?_⟩
      rw [hStarted.2.1]
      cases s.audioSendChannel with
      | none => exact .inr ⟨rfl, _, rfl⟩
      | some channel => exact .inl rfl
  | kept hStarts hActive hTears hKept => exact .inr ⟨hTears, hKept.steady h, .inl hKept.channel⟩
  | gone hStarts hTears hIdle =>
      cases hActive : s.audioActive with
      | true => exact .inl ⟨hTears hActive, hIdle⟩
      | false =>
          refine .inr ⟨?_, hIdle.steady, .inl ?_⟩
          · rw [tearsDown, hActive, Bool.false_and]
          · rw [hIdle.2.2, (h.idle hActive).2]

/-- A stream that was resumed had been interrupted. -/
theorem resumed_interrupted {past : List AudioMove} (h : Resumed na key past) : Interrupted na key past := by
  induction past with
  | nil => exact h
  | cons m past ih =>
      cases m with
      | frame f => exact .inr (ih h)
      | edit sendEnabled format => exact ih h
      | captured data =>
          rcases h with ⟨hInterrupted, -⟩ | hOld
          · exact hInterrupted
          · exact ih hOld

/-- The packet of a move, if it is under the key. -/
theorem nonces_captured {past : List AudioMove} (data : List UInt8) {channel : AudioChannel}
    (hSending : (audioRun na past).2.sending = some channel) (hKey : channel.key = key) :
    nonces na key (.captured data :: past) = channel.sendSeq :: nonces na key past := by
  simp [nonces, audioRun, audioStep, SlaveAudio.capture, hSending, AudioChannel.sendTo, hKey]

/-- A packet under another key uses no nonce of this one. -/
theorem nonces_other {past : List AudioMove} (data : List UInt8)
    (hOther : ∀ channel, (audioRun na past).2.sending = some channel → channel.key ≠ key) :
    nonces na key (.captured data :: past) = nonces na key past := by
  cases hSending : (audioRun na past).2.sending with
  | none => simp [nonces, audioRun, audioStep, SlaveAudio.capture, hSending]
  | some channel =>
      simp [nonces, audioRun, audioStep, SlaveAudio.capture, hSending, AudioChannel.sendTo,
        hOther channel hSending]

theorem nonces_frame (past : List AudioMove) (f : SlaveFrame) :
    nonces na key (.frame f :: past) = nonces na key past := rfl

/-- The counter of the channel under the key, if that is the present one. -/
def CountsFrom (s : SlaveAudio) (key : Key32 UInt8) (n : Nat) : Prop :=
  ∀ channel, s.audioSendChannel = some channel → channel.key = key → channel.sendSeq = UInt32.ofNat n

/-- The stream under the key is on its first channel. -/
structure Unbroken (s : SlaveAudio) (key : Key32 UInt8) (n : Nat) : Prop where
  counts : CountsFrom s key n
  present : n ≠ 0 → ∃ channel, s.audioSendChannel = some channel ∧ channel.key = key

/-- What holds of the nonces under a key in every run. -/
structure Counted (na : Sodium UInt8) (key : Key32 UInt8) (past : List AudioMove) : Prop where
  steady : (audioRun na past).2.Steady
  first : nonces na key past ≠ [] → 0 ∈ nonces na key past
  counting : ¬ Resumed na key past → nonces na key past = countdown (nonces na key past).length
  unbroken : ¬ Interrupted na key past → Unbroken (audioRun na past).2 key (nonces na key past).length
  restarted : Interrupted na key past → ¬ Resumed na key past → CountsFrom (audioRun na past).2 key 0
  repeated : Resumed na key past → ¬ (nonces na key past).Nodup

/-- Before anything was sent no nonce is used. -/
theorem counted_start : Counted na key [] where
  steady := SlaveAudio.Idle.steady ⟨rfl, rfl, rfl⟩
  first hNe := absurd rfl hNe
  counting _ := rfl
  unbroken _ := ⟨nofun, fun hNe => absurd rfl hNe⟩
  restarted h := h.elim
  repeated h := h.elim

/-- A stream is interrupted only after a packet under its key. -/
theorem interrupted_nonempty {past : List AudioMove} (h : Interrupted na key past) : nonces na key past ≠ [] := by
  induction past with
  | nil => exact h.elim
  | cons m past ih =>
      cases m with
      | frame f =>
          rw [nonces_frame]
          exact h.elim (fun hNow => hNow.2) ih
      | edit sendEnabled format => exact ih h
      | captured data =>
          by_cases hSends : ∃ channel, (audioRun na past).2.sending = some channel ∧ channel.key = key
          · obtain ⟨channel, hSending, hKey⟩ := hSends
            rw [nonces_captured data hSending hKey]
            exact List.cons_ne_nil _ _
          · rw [nonces_other data fun channel hSending hKey => hSends ⟨channel, hSending, hKey⟩]
            exact ih h

/-- Without a channel there is no counter to be wrong. -/
theorem countsFrom_none {s : SlaveAudio} (h : s.audioSendChannel = none) (n : Nat) : CountsFrom s key n := by
  intro channel hChannel
  rw [h] at hChannel
  cases hChannel

/-- A first channel counts from zero. -/
theorem countsFrom_first {s : SlaveAudio} (h : ∃ k, s.audioSendChannel = some { key := k }) : CountsFrom s key 0 := by
  intro channel hChannel _
  obtain ⟨k, hFirst⟩ := h
  obtain rfl := Option.some.inj (hFirst.symm.trans hChannel)
  rfl

/-- A frame tears the stream down, keeps it, or begins one. -/
theorem counted_frame {past : List AudioMove} (h : Counted na key past) (f : SlaveFrame) :
    Counted na key (.frame f :: past) := by
  rcases pumpSlave_outcome na h.steady f with
    ⟨hTears, hIdle⟩ | ⟨hTears, hSteady, hSame | ⟨hNone, hFirst⟩⟩
  · exact {
      steady := hIdle.steady
      first := h.first
      counting := h.counting
      unbroken := fun hWhole => ⟨countsFrom_none hIdle.2.2 _, fun hNe =>
        absurd (.inl ⟨hTears, fun hNil => hNe (by rw [nonces_frame, hNil]; rfl)⟩) hWhole⟩
      restarted := fun _ _ => countsFrom_none hIdle.2.2 _
      repeated := h.repeated }
  · have hKeeps : ∀ n, CountsFrom (audioRun na past).2 key n → CountsFrom (pumpSlave na f (audioRun na past).2).1 key n :=
      fun n hCounts channel hChannel => hCounts channel (hSame ▸ hChannel)
    exact {
      steady := hSteady
      first := h.first
      counting := h.counting
      unbroken := fun hWhole => by
        obtain ⟨hCounts, hPresent⟩ := h.unbroken fun hOld => hWhole (.inr hOld)
        exact ⟨hKeeps _ hCounts, fun hNe => hSame ▸ hPresent hNe⟩
      restarted := fun hInterrupted hNew => by
        rcases hInterrupted with ⟨hNow, -⟩ | hOld
        · rw [hTears] at hNow
          cases hNow
        · exact hKeeps _ (h.restarted hOld hNew)
      repeated := h.repeated }
  · exact {
      steady := hSteady
      first := h.first
      counting := h.counting
      unbroken := fun hWhole => by
        obtain ⟨-, hPresent⟩ := h.unbroken fun hOld => hWhole (.inr hOld)
        have hEmpty : (nonces na key past).length = 0 := by
          by_contra hNe
          obtain ⟨channel, hChannel, -⟩ := hPresent hNe
          rw [hNone] at hChannel
          cases hChannel
        rw [nonces_frame, hEmpty]
        exact ⟨countsFrom_first hFirst, fun hNe => absurd rfl hNe⟩
      restarted := fun _ _ => countsFrom_first hFirst
      repeated := h.repeated }

/-- What a running device sends through is the channel of the stream. -/
theorem sending_channel {s : SlaveAudio} {channel : AudioChannel} (h : s.Steady) (hSending : s.sending = some channel) :
    s.audioActive = true ∧ s.audioSendChannel = some channel := by
  cases hActive : s.audioActive with
  | true => exact ⟨rfl, (h.running hActive).1.symm.trans hSending⟩
  | false =>
      rw [SlaveAudio.sending, (h.idle hActive).1] at hSending
      cases hSending

/-- A packet advances the counter of the present channel. -/
theorem capture_some {s : SlaveAudio} {channel : AudioChannel} (h : s.Steady) (hSending : s.sending = some channel)
    (data : List UInt8) : (s.capture data).2.Steady ∧
      (s.capture data).2.audioSendChannel = some { channel with sendSeq := channel.sendSeq + 1 } := by
  obtain ⟨hActive, -⟩ := sending_channel h hSending
  simp only [SlaveAudio.capture, hSending, AudioChannel.sendTo]
  refine ⟨⟨fun _ => ⟨?_, rfl⟩, fun hIdle => ?_⟩, trivial⟩
  · unfold SlaveAudio.sending at hSending ⊢
    split at hSending
    · next device hCapture => rw [hCapture]
    · cases hSending
  · rw [hActive] at hIdle
    cases hIdle

/-- A device that does not send changes nothing. -/
theorem capture_none {s : SlaveAudio} (hSending : s.sending = none) (data : List UInt8) :
    (s.capture data).2 = s := by
  simp only [SlaveAudio.capture, hSending]

/-- A packet under another key, or none. -/
theorem counted_other {past : List AudioMove} (h : Counted na key past) (data : List UInt8)
    (hOther : ∀ channel, (audioRun na past).2.sending = some channel → channel.key ≠ key) :
    Counted na key (.captured data :: past) := by
  have hNonces := nonces_other data hOther
  have hResumed : Resumed na key (.captured data :: past) ↔ Resumed na key past := by
    refine ⟨fun hNew => ?_, .inr⟩
    rcases hNew with ⟨-, channel, hSending, hKey⟩ | hOld
    · exact absurd hKey (hOther channel hSending)
    · exact hOld
  have hStream : ((audioRun na past).2.capture data).2.Steady ∧
      (∀ n, CountsFrom (audioRun na past).2 key n → CountsFrom ((audioRun na past).2.capture data).2 key n) ∧
      ∀ n, Unbroken (audioRun na past).2 key n → Unbroken ((audioRun na past).2.capture data).2 key n := by
    cases hSending : (audioRun na past).2.sending with
    | none =>
        rw [capture_none hSending]
        exact ⟨h.steady, fun _ hCounts => hCounts, fun _ hWhole => hWhole⟩
    | some channel =>
        obtain ⟨hSteady, hAfter⟩ := capture_some h.steady hSending data
        have hKey := hOther channel hSending
        have hCounts : ∀ n, CountsFrom ((audioRun na past).2.capture data).2 key n := by
          intro n after hChannel hSame
          obtain rfl := Option.some.inj (hAfter.symm.trans hChannel)
          exact absurd hSame hKey
        refine ⟨hSteady, fun n _ => hCounts n, fun n hWhole => ⟨hCounts n, fun hNe => ?_⟩⟩
        obtain ⟨before, hChannel, hSame⟩ := hWhole.present hNe
        obtain rfl := Option.some.inj ((sending_channel h.steady hSending).2.symm.trans hChannel)
        exact absurd hSame hKey
  exact {
    steady := hStream.1
    first := hNonces ▸ h.first
    counting := fun hNew => hNonces ▸ h.counting fun hOld => hNew (hResumed.mpr hOld)
    unbroken := fun hWhole => hNonces ▸ hStream.2.2 _ (h.unbroken hWhole)
    restarted := fun hInterrupted hNew =>
      hStream.2.1 _ (h.restarted hInterrupted fun hOld => hNew (hResumed.mpr hOld))
    repeated := fun hNew => hNonces ▸ h.repeated (hResumed.mp hNew) }

/-- A packet under the key: the next value of its counter, or a second 0. -/
theorem counted_captured {past : List AudioMove} (h : Counted na key past) (data : List UInt8) {channel : AudioChannel}
    (hSending : (audioRun na past).2.sending = some channel) (hKey : channel.key = key) :
    Counted na key (.captured data :: past) := by
  have hNonces := nonces_captured data hSending hKey
  obtain ⟨hSteady, hAfter⟩ := capture_some h.steady hSending data
  have hBefore := (sending_channel h.steady hSending).2
  have hWhole : ¬ Interrupted na key past → channel.sendSeq = UInt32.ofNat (nonces na key past).length :=
    fun hWhole => (h.unbroken hWhole).counts channel hBefore hKey
  have hZero : Interrupted na key past → ¬ Resumed na key past → channel.sendSeq = 0 :=
    fun hInterrupted hNew => h.restarted hInterrupted hNew channel hBefore hKey
  have hResumes : Interrupted na key past → Resumed na key (.captured data :: past) :=
    fun hInterrupted => .inl ⟨hInterrupted, channel, hSending, hKey⟩
  exact {
    steady := hSteady
    first := fun _ => by
      rw [hNonces]
      by_cases hNil : nonces na key past = []
      · have hNot : ¬ Interrupted na key past := fun hInterrupted => interrupted_nonempty hInterrupted hNil
        rw [hWhole hNot, hNil]
        exact List.mem_cons_self
      · exact List.mem_cons_of_mem _ (h.first hNil)
    counting := fun hNew => by
      have hNot : ¬ Interrupted na key past := fun hInterrupted => hNew (hResumes hInterrupted)
      have hOld := h.counting fun hOld => hNot (resumed_interrupted hOld)
      rw [hNonces, hWhole hNot, List.length_cons, countdown_succ, ← hOld]
    unbroken := fun hNot => by
      refine ⟨fun after hChannel _ => ?_, fun _ => ⟨_, hAfter, hKey⟩⟩
      obtain rfl := Option.some.inj (hAfter.symm.trans hChannel)
      rw [hNonces, List.length_cons, hWhole hNot]
      simp
    restarted := fun hInterrupted hNew => absurd (hResumes hInterrupted) hNew
    repeated := fun hNew hNodup => by
      rw [hNonces, List.nodup_cons] at hNodup
      have hInterrupted : Interrupted na key (.captured data :: past) := resumed_interrupted hNew
      by_cases hOld : Resumed na key past
      · exact h.repeated hOld hNodup.2
      · rw [hZero hInterrupted hOld] at hNodup
        exact hNodup.1 (h.first (interrupted_nonempty hInterrupted)) }

/-- In every run the nonces under a key count up by one from zero, until the
stream is interrupted and resumed. -/
theorem run_counted (past : List AudioMove) : Counted na key past := by
  induction past with
  | nil => exact counted_start
  | cons m past ih =>
      cases m with
      | frame f => exact counted_frame ih f
      | edit sendEnabled format =>
          exact {
            steady := ⟨ih.steady.running, ih.steady.idle⟩
            first := ih.first
            counting := ih.counting
            unbroken := fun hWhole => ⟨(ih.unbroken hWhole).counts, (ih.unbroken hWhole).present⟩
            restarted := ih.restarted
            repeated := ih.repeated }
      | captured data =>
          by_cases hSends : ∃ channel, (audioRun na past).2.sending = some channel ∧ channel.key = key
          · obtain ⟨channel, hSending, hKey⟩ := hSends
            exact counted_captured ih data hSending hKey
          · exact counted_other ih data fun channel hSending hKey => hSends ⟨channel, hSending, hKey⟩

/-- The nonces under a key are distinct exactly when no packet follows a
tear-down that came after a packet, and the counter has not wrapped. -/
theorem audio_nonces_distinct_iff (na : Sodium UInt8) (key : Key32 UInt8) (past : List AudioMove) :
    (nonces na key past).Nodup ↔ ¬ Resumed na key past ∧ (nonces na key past).length ≤ 2 ^ 32 := by
  have h : Counted na key past := run_counted past
  by_cases hResumed : Resumed na key past
  · exact ⟨fun hNodup => absurd hNodup (h.repeated hResumed), fun hBoth => absurd hResumed hBoth.1⟩
  · have hIff := nodup_countdown_iff (nonces na key past).length
    rw [← h.counting hResumed] at hIff
    rw [hIff]
    exact ⟨fun hLe => ⟨hResumed, hLe⟩, fun hBoth => hBoth.2⟩

/-- All frames see one connection with one key. -/
def InConnection (transportKey : Key32 UInt8) (past : List AudioMove) : Prop :=
  ∀ f, .frame f ∈ past → ∃ info, f.tcpClient = some info ∧ info.state = .connected ∧ info.audioKey = transportKey

/-- A frame of a connection whose Master has announced its port. -/
def liveFrame : SlaveFrame where
  tcpClient := some { state := .connected, peerIp := "192.168.0.2", audioKey := Bytes.fill 32 7, peerAudioPort := 47100 }

/-- The user switches sending off and on again between two packets. -/
def switchedMoves : List AudioMove :=
  [.captured [2], .frame liveFrame, .edit true {}, .frame liveFrame, .edit false {}, .captured [1], .frame liveFrame]

/-- Switching sending off and on between two packets makes a new channel under
the same key, and the nonce 0 is used twice. -/
theorem audio_nonce_repeated : ¬ ∀ (na : Sodium UInt8) (transportKey : Key32 UInt8) (past : List AudioMove),
    InConnection transportKey past → (nonces na (deriveAudioKey na transportKey) past).Nodup := by
  intro hAll
  have hNodup := hAll plainSodium (Bytes.fill 32 7) switchedMoves (by simp [InConnection, switchedMoves, liveFrame])
  have hTwice : nonces plainSodium (deriveAudioKey plainSodium (Bytes.fill 32 7)) switchedMoves = [0, 0] := by
    decide +kernel
  rw [hTwice] at hNodup
  cases hNodup with
  | cons hNew _ => exact hNew 0 List.mem_cons_self rfl

end NoCapKVM.App
