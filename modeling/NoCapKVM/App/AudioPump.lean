import NoCapKVM.Audio.Channel
import NoCapKVM.Discovery.Operations

/-! `app/audio_pump.cpp` on the Slave, and `retry_backoff.h`: when the capture device
runs, and through which channel its packets go. -/
namespace NoCapKVM.App

open Audio Discovery

structure RetryBackoff where
  backoff : Time
  retryAfter : Time := 0
  hasRetryAfter : Bool := false
  failureLogged : Bool := false

namespace RetryBackoff

def shouldAttempt (b : RetryBackoff) (now : Time) : Bool :=
  !b.hasRetryAfter || now ≥ b.retryAfter

/-- The result says whether the failure is to be logged. -/
def onFailure (b : RetryBackoff) (now : Time) : Bool × RetryBackoff :=
  (!b.failureLogged, { b with retryAfter := now + b.backoff, hasRetryAfter := true, failureLogged := true })

def onSuccess (b : RetryBackoff) : RetryBackoff :=
  { b with hasRetryAfter := false, failureLogged := false }

def reset (b : RetryBackoff) : RetryBackoff :=
  { b with hasRetryAfter := false, failureLogged := false }

end RetryBackoff

/-- A running device, and the destination that its callback was given. -/
structure CaptureDevice where
  format : AudioFormat
  ip : String
  port : UInt16

structure AudioCapture where
  device : Option CaptureDevice := none

/-- The parts of `AppState` that a Slave's audio uses. `audioSendSocket` says
whether the socket is open. -/
structure SlaveAudio where
  audioActive : Bool := false
  audioCapture : Option AudioCapture := none
  audioSendChannel : Option AudioChannel := none
  audioSendSocket : Bool := false
  audioActiveFormat : AudioFormat := {}
  audioSlaveStartBackoff : RetryBackoff := { backoff := seconds 2 }
  audioSendEnabled : Bool := true
  audioDesiredFormat : AudioFormat := {}
  audioLastAppliedMasterControlSeq : UInt32 := 0
  audioStatusReported : Bool := false
  audioLastReportedSendEnabled : Bool := true
  audioLastReportedFormat : AudioFormat := {}

/-- What a frame of the pump reads from outside: the status of the client
if there is one, the clock, whether a socket can be made and whether the
device starts. -/
structure SlaveFrame where
  tcpClient : Option ConnectionInfo
  now : Time := 0
  socketMade : Bool := true
  started : Bool := true

inductive AudioEffect where
  | sendMessage (msgType : UInt8) (payload : List UInt8)
  | stopCapture
  | destroyCapture
  | destroyChannel
  | closeSocket
  | createSocket
  | createChannel (key : Key32 UInt8)
  | startCapture (device : CaptureDevice) (started : Bool)
  | log (event : String)

abbrev Pumped := SlaveAudio × List AudioEffect

def stopSlaveAudio (state : SlaveAudio) : Pumped :=
  ({ state with audioCapture := none, audioSendChannel := none, audioSendSocket := false },
    (if state.audioCapture.isSome then [.stopCapture, .destroyCapture] else []) ++
    (if state.audioSendChannel.isSome then [.destroyChannel] else []) ++
    (if state.audioSendSocket then [.closeSocket] else []) ++
    if state.audioActive then [.log "audio.slave_stopped"] else [])

/-- `if (state.audio_active) { stop_slave_audio(state); state.audio_active = false; }` -/
def endSlaveAudio (state : SlaveAudio) : Pumped :=
  if state.audioActive then
    let (state, stopped) := stopSlaveAudio state
    ({ state with audioActive := false }, stopped)
  else (state, [])

/-- Without a connection. -/
def pumpSlaveUnconnected (state : SlaveAudio) : Pumped :=
  let (state, stopped) := endSlaveAudio state
  ({ state with audioStatusReported := false, audioSlaveStartBackoff := state.audioSlaveStartBackoff.reset }, stopped)

/-- The Master's latest request, if it is new. -/
def applyMasterControl (info : ConnectionInfo) (state : SlaveAudio) : SlaveAudio :=
  if info.masterAudioControlReceived && info.masterAudioControlSeq ≠ state.audioLastAppliedMasterControlSeq then
    { state with
      audioSendEnabled := info.masterRequested.sendEnabled
      audioDesiredFormat := ⟨info.masterRequested.sampleRate, info.masterRequested.bitDepth⟩
      audioLastAppliedMasterControlSeq := info.masterAudioControlSeq }
  else state

def statusChanged (state : SlaveAudio) : Bool :=
  !state.audioStatusReported || state.audioSendEnabled != state.audioLastReportedSendEnabled ||
    (state.audioSendEnabled && state.audioDesiredFormat ≠ state.audioLastReportedFormat)

/-- Report the settings to the Master when they have changed. -/
def reportStatus (state : SlaveAudio) : Pumped :=
  if statusChanged state then
    ({ state with
        audioStatusReported := true
        audioLastReportedSendEnabled := state.audioSendEnabled
        audioLastReportedFormat := state.audioDesiredFormat },
      [.sendMessage kMsgAudioStatus (encodeAudioSettings
        ⟨state.audioSendEnabled, state.audioDesiredFormat.sampleRate, state.audioDesiredFormat.bitDepth⟩)])
  else (state, [])

section Start

variable (na : Sodium UInt8)

/-- `if (!state.audio_send_channel) { ... }` -/
def makeChannel (info : ConnectionInfo) (f : SlaveFrame) (state : SlaveAudio) : Pumped :=
  if state.audioSendChannel.isSome then (state, [])
  else
    let key := deriveAudioKey na info.audioKey
    ({ state with audioSendSocket := f.socketMade, audioSendChannel := some { key := key } },
      [.createSocket, .createChannel key])

/-- A start or a restart of the capture, with the desired format. -/
def startSlaveAudio (info : ConnectionInfo) (f : SlaveFrame) (formatChanged : Bool) (state : SlaveAudio) : Pumped :=
  let dropped : List AudioEffect :=
    if state.audioCapture.isSome then [.stopCapture, .destroyCapture] else []
  let state := { state with audioCapture := none }
  let (state, made) := makeChannel na info f state
  let device : CaptureDevice := ⟨state.audioDesiredFormat, info.peerIp, info.peerAudioPort⟩
  let before := dropped ++ made ++ [.startCapture device f.started]
  if f.started then
    ({ state with
        audioCapture := some ⟨some device⟩
        audioSlaveStartBackoff := state.audioSlaveStartBackoff.onSuccess
        audioActiveFormat := state.audioDesiredFormat
        audioActive := true },
      before ++ [.log (if formatChanged then "audio.slave_restarted" else "audio.slave_started")])
  else
    let (first, backoff) := state.audioSlaveStartBackoff.onFailure f.now
    let (state, stopped) := stopSlaveAudio
      { state with audioCapture := some {}, audioSlaveStartBackoff := backoff }
    ({ state with audioActive := false },
      before ++ (if first then [.log "audio.slave_start_failed"] else []) ++ stopped)

/-- With a connection. -/
def pumpSlaveConnected (info : ConnectionInfo) (f : SlaveFrame) (state : SlaveAudio) : Pumped :=
  let (state, reported) := reportStatus (applyMasterControl info state)
  if !state.audioSendEnabled || info.peerAudioPort = 0 then
    let (state, stopped) := endSlaveAudio state
    ({ state with audioSlaveStartBackoff := state.audioSlaveStartBackoff.reset }, reported ++ stopped)
  else
    let formatChanged := state.audioActive && state.audioActiveFormat ≠ state.audioDesiredFormat
    if state.audioActive && !formatChanged then (state, reported)
    else if !state.audioSlaveStartBackoff.shouldAttempt f.now then (state, reported)
    else
      let (state, started) := startSlaveAudio na info f formatChanged state
      (state, reported ++ started)

/-- What the rest of a frame does, from the state that it has reported. -/
inductive Reacts (info : ConnectionInfo) (f : SlaveFrame) (s : SlaveAudio) (reported : List AudioEffect) : Pumped → Prop where
  | unwanted (hUnwanted : s.audioSendEnabled = false ∨ info.peerAudioPort = 0) :
      Reacts info f s reported
        ({ (endSlaveAudio s).1 with audioSlaveStartBackoff := (endSlaveAudio s).1.audioSlaveStartBackoff.reset },
          reported ++ (endSlaveAudio s).2)
  | unchanged (hSend : s.audioSendEnabled = true) (hPort : info.peerAudioPort ≠ 0) (hActive : s.audioActive = true)
      (hFormat : s.audioActiveFormat = s.audioDesiredFormat) : Reacts info f s reported (s, reported)
  | waiting (hSend : s.audioSendEnabled = true) (hPort : info.peerAudioPort ≠ 0)
      (hChanged : s.audioActive = true → s.audioActiveFormat ≠ s.audioDesiredFormat)
      (hWait : s.audioSlaveStartBackoff.shouldAttempt f.now = false) : Reacts info f s reported (s, reported)
  | starting (formatChanged : Bool) (hSend : s.audioSendEnabled = true) (hPort : info.peerAudioPort ≠ 0)
      (hChanged : s.audioActive = true → s.audioActiveFormat ≠ s.audioDesiredFormat)
      (hAttempt : s.audioSlaveStartBackoff.shouldAttempt f.now = true) :
      Reacts info f s reported ((startSlaveAudio na info f formatChanged s).1,
        reported ++ (startSlaveAudio na info f formatChanged s).2)

theorem pumpSlaveConnected_reacts (info : ConnectionInfo) (f : SlaveFrame) (s : SlaveAudio) :
    Reacts na info f (reportStatus (applyMasterControl info s)).1 (reportStatus (applyMasterControl info s)).2
      (pumpSlaveConnected na info f s) := by
  unfold pumpSlaveConnected
  generalize reportStatus (applyMasterControl info s) = r
  dsimp only
  split
  · next hUnwanted => exact .unwanted (by simpa using hUnwanted)
  · next hWanted =>
    obtain ⟨hSend, hPort⟩ : r.1.audioSendEnabled = true ∧ info.peerAudioPort ≠ 0 := by simpa using hWanted
    split
    · next hSame =>
      obtain ⟨hActive, hFormat⟩ := Bool.and_eq_true_iff.mp hSame
      exact .unchanged hSend hPort hActive (by simpa [hActive] using hFormat)
    · next hOther =>
      have hChanged : r.1.audioActive = true → r.1.audioActiveFormat ≠ r.1.audioDesiredFormat := by
        intro hActive
        simpa [hActive] using hOther
      split
      · next hWait => exact .waiting hSend hPort hChanged (by simpa using hWait)
      · next hAttempt => exact .starting _ hSend hPort hChanged (by simpa using hAttempt)

def pumpSlave (f : SlaveFrame) (state : SlaveAudio) : Pumped :=
  match f.tcpClient with
  | none => pumpSlaveUnconnected state
  | some info => if info.state = .connected then pumpSlaveConnected na info f state else pumpSlaveUnconnected state

end Start
end NoCapKVM.App
