import NoCapKVM.App.AudioPlayback
import NoCapKVM.App.AudioPump
import NoCapKVM.App.ClipboardPump
import NoCapKVM.App.InputPump
import NoCapKVM.Discovery.Shared

/-! The main thread of one machine next to the thread of its connection. A pump polls the
status at its start, and the connection goes on while the pump runs. -/
namespace NoCapKVM.App

open Audio Clipboard Discovery Thread

/-- An operation of the thread of a `TcpClient` or a `TcpServer`. -/
abbrev ThreadOp := {o : Op // IsBare o}

def afterOps (ops : List ThreadOp) (c : Shared) : Shared :=
  ops.foldl (fun c o => c.did o.val) c

/-- The parts of `AppState` that audio and clipboard use. `connection` is
`tcp_server` or `tcp_client`, by the role. -/
structure Station (ι : Type) where
  connection : Option Shared := none
  slave : SlaveAudio := {}
  master : MasterAudio := {}
  clipboard : ClipboardState ι

/-- What `pump_audio` meets besides the status. The channel answers `written`
if it is asked to send. -/
structure AudioFrame where
  now : Time := 0
  socketMade : Bool := true
  started : Bool := true
  queue : List (List UInt8) := []
  written : Bool := true

/-- A call of `send_message` or `send_input` by a pump, with its result. -/
structure Sent where
  msgType : UInt8
  payload : List UInt8
  accepted : Bool
  deriving DecidableEq

/-- What happens to a machine. During a pump its connection performs `early`
before the pump sends, `late` before it returns, and `taking` before it looks
for pending content. -/
inductive StationMove (ι : Type) where
  | began
  | dropped
  | did (o : ThreadOp)
  | pumpAudio (f : AudioFrame) (early late : List ThreadOp)
  | pumpClipboard (f : ClipboardFrame) (written : Bool) (taking early late : List ThreadOp)
  | editSlave (sendEnabled : Bool) (format : AudioFormat)
  | editMaster (sendEnabled : Bool) (format : AudioFormat)
  | copied (held : Held ι)

namespace Station

variable {ι : Type}

def polled (s : Station ι) : Option ConnectionInfo :=
  s.connection.map Shared.status

/-- The connection has performed these operations. -/
def advance (ops : List ThreadOp) (s : Station ι) : Station ι :=
  { s with connection := s.connection.map (afterOps ops) }

/-- The connection accepts a message. -/
def accepts (s : Station ι) (written : Bool) : Bool :=
  s.connection.any (Shared.send · written)

def slaveFrame (s : Station ι) (f : AudioFrame) : SlaveFrame where
  tcpClient := s.polled
  now := f.now
  socketMade := f.socketMade
  started := f.started

def masterFrame (s : Station ι) (f : AudioFrame) : MasterFrame where
  tcpServer := s.polled
  now := f.now
  started := f.started
  queue := f.queue

end Station

def AudioEffect.message? : AudioEffect → Option (UInt8 × List UInt8)
  | .sendMessage msgType payload => some (msgType, payload)
  | _ => none

def PlaybackEffect.message? : PlaybackEffect → Option (UInt8 × List UInt8)
  | .sendInput msgType payload => some (msgType, payload)
  | _ => none

def sentAs (accepted : Bool) (message : UInt8 × List UInt8) : Sent :=
  ⟨message.1, message.2, accepted⟩

section Step

variable {ι : Type} (na : Sodium UInt8) (stb : Stb ι) (role : Role)

/-- `pump_audio` up to its send, and the rest of the
connection's operations. -/
def Station.pumpAudio (f : AudioFrame) (early late : List ThreadOp) (s : Station ι) : Station ι × List Sent :=
  let accepted := (s.advance early).accepts f.written
  match role with
  | .slave =>
      let (slave, effects) := pumpSlave na (s.slaveFrame f) s.slave
      ({ s with slave := slave }.advance (early ++ late),
        (effects.filterMap AudioEffect.message?).map (sentAs accepted))
  | .master =>
      let (master, effects) := pumpMaster na (s.masterFrame f) s.master
      ({ s with master := master }.advance (early ++ late),
        (effects.filterMap PlaybackEffect.message?).map (sentAs accepted))

/-- `pump_clipboard` with a connection. -/
def Station.syncConnection (f : ClipboardFrame) (written : Bool) (taking early : List ThreadOp) (c : Shared)
    (state : ClipboardState ι) : Shared × ClipboardState ι × List Sent :=
  if c.connected then
    let (pending, c) := (afterOps taking c).takePendingClipboard
    let c := afterOps early c
    let (state, content) := syncClipboard stb true pending f state
    (c, state, content.toList.map fun content => sentAs (c.send written) (clipboardMsgType content, content.data))
  else
    let (state, _) := syncClipboard stb false none f state
    (afterOps (taking ++ early) c, state, [])

def Station.pumpClipboard (f : ClipboardFrame) (written : Bool) (taking early late : List ThreadOp)
    (s : Station ι) : Station ι × List Sent :=
  match s.connection with
  | none => ({ s with clipboard := forgetClipboard s.clipboard }, [])
  | some c =>
      let (c, state, sent) := Station.syncConnection stb f written taking early c s.clipboard
      ({ s with connection := some (afterOps late c), clipboard := state }, sent)

/-- One move, with the messages that the pumps try to send. -/
def stationStep (s : Station ι) : StationMove ι → Station ι × List Sent
  | .began => ({ s with connection := some {} }, [])
  | .dropped => ({ s with connection := none }, [])
  | .did o => (s.advance [o], [])
  | .pumpAudio f early late => s.pumpAudio na role f early late
  | .pumpClipboard f written taking early late => s.pumpClipboard stb f written taking early late
  | .editSlave sendEnabled format =>
      ({ s with slave := { s.slave with audioSendEnabled := sendEnabled, audioDesiredFormat := format } }, [])
  | .editMaster sendEnabled format =>
      ({ s with master := { s.master with
          audioMasterDesiredSendEnabled := sendEnabled
          audioMasterDesiredFormat := format
          audioMasterOverridden := true } }, [])
  | .copied held => ({ s with clipboard := { s.clipboard with os := s.clipboard.os.copy held } }, [])

/-- The machine after a run, newest move first. -/
def stationRun (platform : Platform) : List (StationMove ι) → Station ι
  | [] => { clipboard := { os := { platform := platform } } }
  | m :: past => (stationStep na stb role (stationRun platform past) m).1

end Step

section Frame

variable {ι : Type}

@[simp] theorem Station.advance_clipboard (ops : List ThreadOp) (s : Station ι) :
    (s.advance ops).clipboard = s.clipboard := rfl

@[simp] theorem afterOps_nil (c : Shared) : afterOps [] c = c := rfl

@[simp] theorem afterOps_cons (o : ThreadOp) (ops : List ThreadOp) (c : Shared) :
    afterOps (o :: ops) c = afterOps ops (c.did o.val) := rfl

variable {na : Sodium UInt8} {stb : Stb ι}

/-- A frame of the Slave's audio changes the audio, while the connection goes
on by itself. -/
theorem Station.pumpAudio_slave (f : AudioFrame) (early late : List ThreadOp) (s : Station ι) :
    (s.pumpAudio na .slave f early late).1 =
      Station.advance (early ++ late) { s with slave := (pumpSlave na (s.slaveFrame f) s.slave).1 } := by
  unfold Station.pumpAudio
  rfl

/-- The status that a frame polls is that of a connection. -/
def Station.Up (s : Station ι) (info : ConnectionInfo) : Prop :=
  s.polled = some info ∧ info.state = .connected

/-- A frame of the Master's audio changes the audio, while the connection goes
on by itself. -/
theorem Station.pumpAudio_master (f : AudioFrame) (early late : List ThreadOp) (s : Station ι) :
    (s.pumpAudio na .master f early late).1 =
      Station.advance (early ++ late) { s with master := (pumpMaster na (s.masterFrame f) s.master).1 } := by
  unfold Station.pumpAudio
  rfl

/-- A pass over the clipboard leaves the audio of a Slave alone. -/
theorem Station.slave_pumpClipboard (f : ClipboardFrame) (written : Bool) (taking early late : List ThreadOp)
    (s : Station ι) : (s.pumpClipboard stb f written taking early late).1.slave = s.slave := by
  unfold Station.pumpClipboard
  cases s.connection <;> rfl

/-- It leaves that of a Master alone too. -/
theorem Station.master_pumpClipboard (f : ClipboardFrame) (written : Bool) (taking early late : List ThreadOp)
    (s : Station ι) : (s.pumpClipboard stb f written taking early late).1.master = s.master := by
  unfold Station.pumpClipboard
  cases s.connection <;> rfl

end Frame

def noPictures : Stb Unit :=
  ⟨fun _ => none, fun _ _ => none⟩

/-- The thread performs these operations, the last of them newest. -/
def performs {ι : Type} (ops : List ThreadOp) : List (StationMove ι) :=
  (ops.map .did).reverse

def attempting : ThreadOp :=
  ⟨.assignStatus { state := .connecting }, rfl⟩

/-- One attempt of the client up to `Connected`. -/
def connecting : List ThreadOp :=
  [attempting, ⟨.assignStatus { state := .connected }, rfl⟩, ⟨.setActiveChannel true, trivial⟩]

/-- The end of a connection. -/
def losing : List ThreadOp :=
  [⟨.setActiveChannel false, trivial⟩, ⟨.updateStatus (.state .failed), trivial⟩]

end NoCapKVM.App
