import NoCapKVM.Discovery.Messages

/-! `connection_types.h` and `known_peers.cpp`: what a connection publishes, and
which peers are trusted. -/
namespace NoCapKVM.Discovery

inductive ConnectionState where
  | idle
  | connecting
  | pairing
  | connected
  | failed
  deriving DecidableEq

/-- A published status. Fields of one side only keep their defaults
on the other. -/
structure ConnectionInfo where
  state : ConnectionState := .idle
  peerDeviceId : UInt64 := 0
  peerIp : String := ""
  pairingFingerprint : String := ""
  peerMonitors : List MonitorInfo := []
  audioKey : Key32 UInt8 := Bytes.fill 32 0
  peerAudioPort : UInt16 := 0
  peerAudio : AudioSettings := ⟨false, 0, 16⟩
  masterAudioControlReceived : Bool := false
  masterRequested : AudioSettings := ⟨true, 48000, 16⟩
  masterAudioControlSeq : UInt32 := 0
  goAwayReceived : Bool := false
  lastRttMs : Int := -1

/-- Nothing in it has been reported by the peer. -/
def ConnectionInfo.Bare (info : ConnectionInfo) : Prop :=
  info = { state := info.state, peerDeviceId := info.peerDeviceId, peerIp := info.peerIp,
           pairingFingerprint := info.pairingFingerprint, audioKey := info.audioKey }

/-- The changes of single fields, each made under the status mutex. -/
inductive StatusUpdate where
  | state (s : ConnectionState)
  | peerMonitors (monitors : List MonitorInfo)
  | peerAudioPort (port : UInt16)
  | peerAudio (settings : AudioSettings)
  | masterRequested (settings : AudioSettings)
  | goAwayReceived
  | lastRttMs (ms : Int)

def StatusUpdate.apply : StatusUpdate → ConnectionInfo → ConnectionInfo
  | .state s, info => { info with state := s }
  | .peerMonitors monitors, info => { info with peerMonitors := monitors }
  | .peerAudioPort port, info => { info with peerAudioPort := port }
  | .peerAudio settings, info => { info with peerAudio := settings }
  | .masterRequested settings, info =>
      { info with masterRequested := settings, masterAudioControlReceived := true,
                  masterAudioControlSeq := info.masterAudioControlSeq + 1 }
  | .goAwayReceived, info => { info with goAwayReceived := true }
  | .lastRttMs ms, info => { info with lastRttMs := ms }

/-- The trust store. `saved` is what its file holds. -/
structure KnownPeers where
  peers : UInt64 → Option (Key32 UInt8)
  saved : UInt64 → Option (Key32 UInt8)

namespace KnownPeers

def getPubkey (s : KnownPeers) (deviceId : UInt64) : Option (Key32 UInt8) :=
  s.peers deviceId

def save (s : KnownPeers) : KnownPeers :=
  { s with saved := s.peers }

def remember (s : KnownPeers) (deviceId : UInt64) (pubkey : Key32 UInt8) : KnownPeers :=
  { s with peers := fun d => if d = deviceId then some pubkey else s.peers d }.save

def forget (s : KnownPeers) (deviceId : UInt64) : KnownPeers :=
  { s with peers := fun d => if d = deviceId then none else s.peers d }.save

@[simp] theorem getPubkey_remember (s : KnownPeers) (deviceId d : UInt64) (pubkey : Key32 UInt8) :
    (s.remember deviceId pubkey).getPubkey d = if d = deviceId then some pubkey else s.getPubkey d := rfl

@[simp] theorem getPubkey_forget (s : KnownPeers) (deviceId d : UInt64) :
    (s.forget deviceId).getPubkey d = if d = deviceId then none else s.getPubkey d := rfl

end KnownPeers
end NoCapKVM.Discovery
