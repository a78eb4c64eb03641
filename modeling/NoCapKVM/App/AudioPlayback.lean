import NoCapKVM.Audio.Channel
import NoCapKVM.Audio.JitterBuffer
import NoCapKVM.Discovery.Operations

/-! `app/audio_pump.cpp` on the Master: what it asks of the Slave, when the playback
device runs, and which packets reach it. -/
namespace NoCapKVM.App

open Audio Discovery

def kAudioLossSampleInterval : Time := seconds 1

def kTargetDepth : Nat := 8
def kMaxDepth : Nat := 200
def kMaxPacketSize : Nat := 2048

/-- `device` is the format of a running device. -/
structure AudioPlayback where
  device : Option AudioFormat := none
  buffer : JitterBuffer (List UInt8) := .new kTargetDepth kMaxDepth

/-- The parts of `AppState` that a Master's audio uses. -/
structure MasterAudio where
  audioActive : Bool := false
  audioPlayback : Option AudioPlayback := none
  audioPlaybackGeneration : Nat := 0
  audioLossWindowLastSampleAt : Time := 0
  audioRecvChannel : Option AudioChannel := none
  audioMasterActiveFormat : AudioFormat := {}
  audioMasterDesiredSendEnabled : Bool := true
  audioMasterDesiredFormat : AudioFormat := {}
  audioMasterOverridden : Bool := false
  audioMasterControlSent : Bool := false
  audioMasterLastSentEnabled : Bool := true
  audioMasterLastSentFormat : AudioFormat := {}

/-- What a frame of the pump reads from outside: the status of the server if
there is one, the clock, whether the device starts, and the datagrams that
wait on the socket. -/
structure MasterFrame where
  tcpServer : Option ConnectionInfo
  now : Time := 0
  started : Bool := true
  queue : List (List UInt8) := []

inductive PlaybackEffect where
  | sendInput (msgType : UInt8) (payload : List UInt8)
  | stopPlayback
  | startPlayback (format : AudioFormat) (started : Bool)
  | destroyChannel
  | createChannel (key : Key32 UInt8)
  | resetWindows
  | recordWindows (now : Time) (misses played buffered : Nat)
  | log (event : String)

abbrev MasterPumped := MasterAudio × List PlaybackEffect

def stopMasterAudio (state : MasterAudio) : MasterPumped :=
  ({ state with audioPlayback := none, audioRecvChannel := none },
    (if state.audioPlayback.isSome then [.stopPlayback] else []) ++
    (if state.audioRecvChannel.isSome then [.destroyChannel] else []) ++
    [.resetWindows, .log "audio.master_stopped"])

/-- `if (state.audio_active) { stop_master_audio(state); state.audio_active = false; }` -/
def endMasterAudio (state : MasterAudio) : MasterPumped :=
  if state.audioActive then
    let (state, stopped) := stopMasterAudio state
    ({ state with audioActive := false }, stopped)
  else (state, [])

/-- Without a connection. -/
def pumpMasterUnconnected (state : MasterAudio) : MasterPumped :=
  let (state, stopped) := endMasterAudio state
  ({ state with audioMasterControlSent := false, audioMasterOverridden := false }, stopped)

def wantSendControl (state : MasterAudio) : Bool :=
  !state.audioMasterControlSent || state.audioMasterDesiredSendEnabled != state.audioMasterLastSentEnabled ||
    (state.audioMasterDesiredSendEnabled && state.audioMasterDesiredFormat ≠ state.audioMasterLastSentFormat)

/-- Without a request of the user the Slave's settings are mirrored. A request
goes to the Slave once for the connection, and again when it has changed. -/
def pushControl (info : ConnectionInfo) (state : MasterAudio) : MasterPumped :=
  if !state.audioMasterOverridden then
    ({ state with
        audioMasterDesiredSendEnabled := info.peerAudio.sendEnabled
        audioMasterDesiredFormat := ⟨info.peerAudio.sampleRate, info.peerAudio.bitDepth⟩ }, [])
  else if wantSendControl state then
    ({ state with
        audioMasterControlSent := true
        audioMasterLastSentEnabled := state.audioMasterDesiredSendEnabled
        audioMasterLastSentFormat := state.audioMasterDesiredFormat },
      [.sendInput kMsgAudioControl (encodeAudioSettings
        ⟨state.audioMasterDesiredSendEnabled, state.audioMasterDesiredFormat.sampleRate,
          state.audioMasterDesiredFormat.bitDepth⟩)])
  else (state, [])

/-- `receive_nonblocking` until it fails, with the datagrams left on the
socket. One that does not decode is taken off and ends the loop. -/
def receivePackets (na : Sodium UInt8) (key : Key32 UInt8) :
    List (List UInt8) → JitterBuffer (List UInt8) → JitterBuffer (List UInt8) × List (List UInt8)
  | [], buffer => (buffer, [])
  | datagram :: queue, buffer =>
      match decodeFrame na key (datagram.take kMaxPacketSize) with
      | some (seq, data) => receivePackets na key queue (buffer.push {} seq data).2
      | none => (buffer, queue)

section Start

variable (na : Sodium UInt8)

/-- A start or a restart of the playback, in the format that the Slave has
reported. The channel is only made if there is none, and `audio_active` is set
even if the device does not open. -/
def startMasterAudio (info : ConnectionInfo) (f : MasterFrame) (formatChanged : Bool) (state : MasterAudio) : MasterPumped :=
  let peerFormat : AudioFormat := ⟨info.peerAudio.sampleRate, info.peerAudio.bitDepth⟩
  let stopped : List PlaybackEffect := if state.audioPlayback.isSome then [.stopPlayback] else []
  let key := deriveAudioKey na info.audioKey
  ({ state with
      audioPlayback := if f.started then some { device := some peerFormat } else none
      audioPlaybackGeneration := state.audioPlaybackGeneration + 1
      audioLossWindowLastSampleAt := 0
      audioMasterActiveFormat := peerFormat
      audioRecvChannel := state.audioRecvChannel.or (some { key := key })
      audioActive := true },
    stopped ++ [.resetWindows, .startPlayback peerFormat f.started,
      .log (if !f.started then "audio.master_start_failed"
        else if formatChanged then "audio.master_restarted" else "audio.master_started")] ++
    if state.audioRecvChannel.isSome then [] else [.createChannel key])

/-- The samples of the quality windows, once a second. -/
def sampleWindows (f : MasterFrame) (playback : AudioPlayback) (state : MasterAudio) : MasterPumped :=
  if f.now - state.audioLossWindowLastSampleAt ≥ kAudioLossSampleInterval then
    ({ state with audioLossWindowLastSampleAt := f.now },
      [.recordWindows f.now playback.buffer.playoutMisses playback.buffer.framesPlayed playback.buffer.depth])
  else (state, [])

/-- The rest of a frame while the Slave is sending and the stream is up. -/
def playPackets (f : MasterFrame) (state : MasterAudio) : MasterPumped :=
  match state.audioPlayback, state.audioRecvChannel with
  | some playback, some channel =>
      let (state, sampled) := sampleWindows f playback state
      let (buffer, _) := receivePackets na channel.key f.queue playback.buffer
      ({ state with audioPlayback := some { playback with buffer := buffer } }, sampled)
  | _, _ => (state, [])

/-- With a connection. -/
def pumpMasterConnected (info : ConnectionInfo) (f : MasterFrame) (state : MasterAudio) : MasterPumped :=
  let (state, pushed) := pushControl info state
  if !info.peerAudio.sendEnabled then
    let (state, stopped) := endMasterAudio state
    (state, pushed ++ stopped)
  else
    let peerFormat : AudioFormat := ⟨info.peerAudio.sampleRate, info.peerAudio.bitDepth⟩
    let formatChanged := state.audioActive && peerFormat ≠ state.audioMasterActiveFormat
    let (state, started) :=
      if !state.audioActive || formatChanged then startMasterAudio na info f formatChanged state else (state, [])
    let (state, played) := playPackets na f state
    (state, pushed ++ started ++ played)

def pumpMaster (f : MasterFrame) (state : MasterAudio) : MasterPumped :=
  match f.tcpServer with
  | none => pumpMasterUnconnected state
  | some info => if info.state = .connected then pumpMasterConnected na info f state else pumpMasterUnconnected state

end Start
end NoCapKVM.App
