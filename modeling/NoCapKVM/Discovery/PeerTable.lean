import NoCapKVM.Container.ExpiringTable
import NoCapKVM.Discovery.Announce
import NoCapKVM.Discovery.Operations
import NoCapKVM.Thread.Safety

/-! Discovery: `Announcer` and `Listener` as programs, the listener's `PeerTable`, and the
network between them. It carries datagrams and may lose, repeat, delay and reorder them. -/
namespace NoCapKVM.Discovery

open Thread

/-- An IPv4 address. -/
structure InAddr where
  a : UInt8
  b : UInt8
  c : UInt8
  d : UInt8
  deriving DecidableEq

def INADDR_BROADCAST : InAddr := ⟨255, 255, 255, 255⟩

/-- `inet_ntop` -/
def inetNtop (addr : InAddr) : String :=
  ".".intercalate ([addr.a, addr.b, addr.c, addr.d].map fun byte => toString byte.toNat)

inductive AnnouncerOp where
  | running
  | getBroadcastTargets
  | sendto (target : InAddr) (packet : List UInt8)
  | sleep (duration : Time)

@[reducible] def AnnouncerAns : AnnouncerOp → Type
  | .running => Bool
  | .getBroadcastTargets => List InAddr
  | _ => Unit

abbrev AnnouncerProg := Prog AnnouncerOp AnnouncerAns

structure Announcer where
  deviceId : UInt64
  role : Role
  tcpPort : UInt16
  hostname : List UInt8
  deriving DecidableEq

namespace Announcer

abbrev perform (o : AnnouncerOp) : AnnouncerProg (AnnouncerAns o) := Prog.perform o

def sendAll (packet : List UInt8) : List InAddr → AnnouncerProg Unit
  | [] => pure ()
  | target :: targets => do
      perform (.sendto target packet)
      sendAll packet targets

/-- The pause between two rounds ends early once the announcer is stopped. -/
def rest : Nat → AnnouncerProg Unit
  | 0 => pure ()
  | n + 1 => do
      if ← perform .running then
        perform (.sleep (milliseconds 100))
        rest n

def loop (packet : List UInt8) : AnnouncerProg Unit :=
  Prog.iterate () fun _ => do
    if !(← perform .running) then return .inr ()
    let targets : List InAddr ← perform .getBroadcastTargets
    sendAll packet (if targets.isEmpty then [INADDR_BROADCAST] else targets)
    rest 10
    return .inl ()

/-- A write outside of the packet would have no result. -/
def run (announcer : Announcer) : AnnouncerProg Unit :=
  match encodeAnnounce announcer.deviceId announcer.role announcer.tcpPort announcer.hostname with
  | some packet => loop packet
  | none => pure ()

-- Looking at the program would compute its packet.
attribute [irreducible] run

/-- The announcer can come to send the datagram. -/
def Sends (announcer : Announcer) (packet : List UInt8) : Prop :=
  ∃ past target next, announcer.run.Performs past (.op (.sendto target packet) next)

end Announcer

def kPeerTimeout : Time := seconds 5

structure PeerInfo where
  deviceId : UInt64
  hostname : List UInt8
  role : Role
  tcpPort : UInt16
  ipAddress : String
  lastSeen : Time
  deriving DecidableEq

/-- What the listener notes about an announcement. -/
def DecodedAnnounce.peer (decoded : DecodedAnnounce) (from_ : InAddr) (lastSeen : Time) : PeerInfo where
  deviceId := decoded.deviceId
  hostname := decoded.hostname
  role := decoded.role
  tcpPort := decoded.tcpPort
  ipAddress := inetNtop from_
  lastSeen := lastSeen

/-- The entries of the map, in some order. -/
structure PeerTable where
  peers : List PeerInfo := []

namespace PeerTable

def upsert (table : PeerTable) (peer : PeerInfo) : PeerTable :=
  ⟨KeyedList.put PeerInfo.deviceId peer table.peers⟩

def prune (table : PeerTable) (now maxAge : Time) : PeerTable :=
  ⟨ExpiringTable.prune PeerInfo.lastSeen maxAge now table.peers⟩

end PeerTable

inductive ListenerOp where
  | running
  | recvfrom
  | now
  | upsert (peer : PeerInfo)
  | prune (now maxAge : Time)

@[reducible] def ListenerAns : ListenerOp → Type
  | .running => Bool
  | .recvfrom => Option (InAddr × List UInt8)
  | .now => Time
  | _ => Unit

abbrev ListenerProg := Prog ListenerOp ListenerAns

structure Listener where
  ownDeviceId : UInt64

namespace Listener

abbrev perform (o : ListenerOp) : ListenerProg (ListenerAns o) := Prog.perform o

/-- The announcement of another device that a datagram holds. -/
def accepts (listener : Listener) (data : List UInt8) : Option DecodedAnnounce :=
  match decodeAnnounce data with
  | some (some decoded) => if decoded.deviceId ≠ listener.ownDeviceId then some decoded else none
  | _ => none

/-- What is done about the answer of `recvfrom`. -/
def note (listener : Listener) : Option (InAddr × List UInt8) → ListenerProg Unit
  | none => pure ()
  | some (from_, data) =>
      if data.length > 0 then
        match listener.accepts data with
        | some decoded => do
            let lastSeen ← perform .now
            perform (.upsert (decoded.peer from_ lastSeen))
        | none => pure ()
      else pure ()

def run (listener : Listener) : ListenerProg Unit :=
  Prog.iterate () fun _ => do
    if !(← perform .running) then return .inr ()
    let received ← perform .recvfrom
    listener.note received
    let now ← perform .now
    perform (.prune now kPeerTimeout)
    return .inl ()

end Listener

/-- A device that announces itself, and its address. -/
structure Host where
  address : InAddr
  announcer : Announcer

inductive Os where
  | windows
  | linux

/-- What `recvfrom` puts into a buffer of `kAnnouncePacketSize` bytes. A
longer datagram is cut off, or it is an error. -/
def Os.cut (os : Os) (data : List UInt8) : Option (List UInt8) :=
  if data.length ≤ kAnnouncePacketSize then some data
  else
    match os with
    | .windows => none
    | .linux => some (data.take kAnnouncePacketSize)

theorem Os.cut_of_le {os : Os} {data : List UInt8} (h : data.length ≤ kAnnouncePacketSize) : os.cut data = some data :=
  if_pos h

/-- What has ever been sent may arrive at any time, and as often as the
network likes. -/
structure Lan where
  running : Bool := true
  clock : Time := 0
  sent : List (InAddr × List UInt8) := []
  table : PeerTable := {}

/-- What happens beside the listener's thread. `forges` is a datagram that no
announcer sent, and `peers` is a snapshot for the user interface. -/
inductive LanAct where
  | announces (host : Host)
  | forges (from_ : InAddr) (data : List UInt8)
  | passes (time : Time)
  | peers (snapshot : List PeerInfo)
  | stops

def LanAct.acts : LanAct → Lan → Lan → Prop
  | .announces host, s, s' => ∃ packet, host.announcer.Sends packet ∧ s' = { s with sent := (host.address, packet) :: s.sent }
  | .forges from_ data, s, s' => s' = { s with sent := (from_, data) :: s.sent }
  | .passes time, s, s' => s' = { s with clock := s.clock + time }
  | .peers snapshot, s, s' => s' = s ∧ snapshot.Perm s.table.peers
  | .stops, s, s' => s' = { s with running := false }

def Lan.exec (os : Os) : (o : ListenerOp) → Lan → ListenerAns o → Lan → Prop
  | .running, s, r, s' => s' = s ∧ r = s.running
  | .recvfrom, s, none, s' => s' = s
  | .recvfrom, s, some (from_, data), s' => s' = s ∧ ∃ whole, (from_, whole) ∈ s.sent ∧ os.cut whole = some data
  | .now, s, r, s' => s' = s ∧ r = s.clock
  | .upsert peer, s, _, s' => s' = { s with table := s.table.upsert peer }
  | .prune now maxAge, s, _, s' => s' = { s with table := s.table.prune now maxAge }

/-- One listener on the network. -/
def lan (os : Os) : System ListenerOp ListenerAns LanAct Lan where
  exec := Lan.exec os
  env := LanAct.acts

end NoCapKVM.Discovery
