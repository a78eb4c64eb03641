import NoCapKVM.App.CaptureLifetime

/-! The packets that wait on the Master's audio socket, and what a frame of the pump takes
from it. -/
namespace NoCapKVM.App

open Audio Discovery

variable {na : Sodium UInt8}

/-- What the channel makes of a datagram, of which `recvfrom` hands over
`kMaxPacketSize` bytes at most. -/
def decodePacket (na : Sodium UInt8) (key : Key32 UInt8) (datagram : List UInt8) : Option (UInt32 × List UInt8) :=
  decodeFrame na key (datagram.take kMaxPacketSize)

/-- The packets pushed one after the other. -/
def pushPackets (buffer : JitterBuffer (List UInt8)) (packets : List (UInt32 × List UInt8)) : JitterBuffer (List UInt8) :=
  packets.foldl (fun b p => (b.push {} p.1 p.2).2) buffer

/-- A datagram that decodes is pushed, and the loop goes on to
the next one. -/
theorem receivePackets_some {key : Key32 UInt8} {datagram : List UInt8} {packet : UInt32 × List UInt8}
    (hDecodes : decodePacket na key datagram = some packet) (queue : List (List UInt8))
    (buffer : JitterBuffer (List UInt8)) :
    receivePackets na key (datagram :: queue) buffer =
      receivePackets na key queue (buffer.push {} packet.1 packet.2).2 := by
  unfold decodePacket at hDecodes
  rw [receivePackets, hDecodes]

/-- A datagram that does not decode ends the loop. -/
theorem receivePackets_none {key : Key32 UInt8} {datagram : List UInt8}
    (hBad : decodePacket na key datagram = none) (queue : List (List UInt8)) (buffer : JitterBuffer (List UInt8)) :
    receivePackets na key (datagram :: queue) buffer = (buffer, queue) := by
  unfold decodePacket at hBad
  rw [receivePackets, hBad]

/-- The queue is emptied if nothing but its last datagram can be bad. -/
theorem receivePackets_left (key : Key32 UInt8) (queue : List (List UInt8)) (buffer : JitterBuffer (List UInt8)) :
    (receivePackets na key queue buffer).2 = [] ↔
      ∀ datagram ∈ queue.dropLast, (decodePacket na key datagram).isSome = true := by
  induction queue generalizing buffer with
  | nil => exact iff_of_true rfl nofun
  | cons datagram queue ih =>
      cases hDecodes : decodePacket na key datagram with
      | some packet =>
          rw [receivePackets_some hDecodes, ih]
          cases queue with
          | nil => exact iff_of_true nofun nofun
          | cons next queue => simp [List.dropLast, hDecodes]
      | none =>
          rw [receivePackets_none hDecodes]
          cases queue with
          | nil => exact iff_of_true rfl nofun
          | cons next queue =>
              refine iff_of_false (List.cons_ne_nil next queue) ?_
              intro hAll
              have hFirst := hAll datagram List.mem_cons_self
              rw [hDecodes] at hFirst
              cases hFirst

/-- An emptied queue has had all that decodes pushed, in order. -/
theorem receivePackets_pushed {key : Key32 UInt8} {queue : List (List UInt8)} {buffer : JitterBuffer (List UInt8)}
    (hEmptied : (receivePackets na key queue buffer).2 = []) :
    (receivePackets na key queue buffer).1 = pushPackets buffer (queue.filterMap (decodePacket na key)) := by
  induction queue generalizing buffer with
  | nil => rfl
  | cons datagram queue ih =>
      cases hDecodes : decodePacket na key datagram with
      | some packet =>
          rw [receivePackets_some hDecodes] at hEmptied ⊢
          rw [ih hEmptied, List.filterMap_cons_some hDecodes]
          rfl
      | none =>
          rw [receivePackets_none hDecodes] at hEmptied ⊢
          rw [List.filterMap_cons_none hDecodes]
          cases hEmptied
          rfl

section Frame

variable (na : Sodium UInt8)

/-- The state in which a frame with a sending Slave comes to the packets. -/
def atPackets (info : ConnectionInfo) (f : MasterFrame) (state : MasterAudio) : MasterAudio :=
  let state := (pushControl info state).1
  let peerFormat : AudioFormat := ⟨info.peerAudio.sampleRate, info.peerAudio.bitDepth⟩
  let formatChanged := state.audioActive && peerFormat ≠ state.audioMasterActiveFormat
  if !state.audioActive || formatChanged then (startMasterAudio na info f formatChanged state).1 else state

/-- The datagrams that a frame leaves on the socket. -/
def leftOnSocket (f : MasterFrame) (state : MasterAudio) : List (List UInt8) :=
  match f.tcpServer with
  | none => f.queue
  | some info =>
      if info.state = .connected && info.peerAudio.sendEnabled then
        match (atPackets na info f state).audioPlayback, (atPackets na info f state).audioRecvChannel with
        | some playback, some channel => (receivePackets na channel.key f.queue playback.buffer).2
        | _, _ => f.queue
      else f.queue

variable {na}
variable {info : ConnectionInfo} {f : MasterFrame} {state : MasterAudio}

/-- A frame with a sending Slave comes to the packets after everything else
that it does. -/
theorem pumpMaster_atPackets (hServer : f.tcpServer = some info) (hUp : info.state = .connected)
    (hSending : info.peerAudio.sendEnabled = true) :
    (pumpMaster na f state).1 = (playPackets na f (atPackets na info f state)).1 := by
  simp only [pumpMaster, hServer, hUp, if_true, pumpMasterConnected, hSending, Bool.not_true, Bool.false_eq_true,
    if_false, atPackets]
  split <;> rfl

/-- What is taken from the socket goes into the buffer of the playback. -/
theorem audioPlayback_playPackets {s : MasterAudio} {playback : AudioPlayback} {channel : AudioChannel}
    (hPlayback : s.audioPlayback = some playback) (hChannel : s.audioRecvChannel = some channel) :
    (playPackets na f s).1.audioPlayback =
      some { playback with buffer := (receivePackets na channel.key f.queue playback.buffer).1 } := by
  simp only [playPackets, hPlayback, hChannel]

/-- A playback has a channel. -/
def MasterAudio.Receives (state : MasterAudio) : Prop :=
  state.audioPlayback.isSome = true → state.audioRecvChannel.isSome = true

theorem receives_stop (state : MasterAudio) : (stopMasterAudio state).1.Receives := nofun

theorem receives_end (h : state.Receives) : (endMasterAudio state).1.Receives := by
  unfold endMasterAudio
  split
  · exact receives_stop state
  · exact h

theorem pushControl_kept (info : ConnectionInfo) (state : MasterAudio) :
    (pushControl info state).1.audioPlayback = state.audioPlayback ∧
      (pushControl info state).1.audioRecvChannel = state.audioRecvChannel := by
  unfold pushControl
  split
  · exact ⟨rfl, rfl⟩
  · split <;> exact ⟨rfl, rfl⟩

theorem receives_pushControl (h : state.Receives) (info : ConnectionInfo) : (pushControl info state).1.Receives := by
  obtain ⟨hPlayback, hChannel⟩ := pushControl_kept info state
  unfold MasterAudio.Receives
  rw [hPlayback, hChannel]
  exact h

theorem receives_atPackets (h : state.Receives) : (atPackets na info f state).Receives := by
  unfold atPackets
  dsimp only
  split
  · intro _
    simp only [startMasterAudio, Option.isSome_or, Option.isSome_some, Bool.or_true]
  · exact receives_pushControl h info

theorem receives_playPackets (h : state.Receives) : (playPackets na f state).1.Receives := by
  unfold playPackets
  split
  · next playback channel hPlayback hChannel =>
      intro _
      have hKept : (sampleWindows f playback state).1.audioRecvChannel = state.audioRecvChannel := by
        unfold sampleWindows
        split <;> rfl
      change (sampleWindows f playback state).1.audioRecvChannel.isSome = true
      rw [hKept, hChannel]
      rfl
  · exact h

/-- Every frame of the Master leaves a playback with a channel, if
it leaves one. -/
theorem receives_pumpMaster (h : state.Receives) (f : MasterFrame) : (pumpMaster na f state).1.Receives := by
  cases hServer : f.tcpServer with
  | none =>
      simp only [pumpMaster, hServer]
      exact receives_end h
  | some info =>
      by_cases hUp : info.state = .connected
      · cases hSending : info.peerAudio.sendEnabled with
        | true =>
            rw [pumpMaster_atPackets hServer hUp hSending]
            exact receives_playPackets (receives_atPackets h)
        | false =>
            simp only [pumpMaster, hServer, hUp, if_true, pumpMasterConnected, hSending, Bool.not_false]
            exact receives_end (receives_pushControl h info)
      · simp only [pumpMaster, hServer, hUp, if_false]
        exact receives_end h

/-- In either role, a playback has a channel. -/
theorem receives_run (na : Sodium UInt8) (frames : List AppFrame) :
    (({} : AppAudio).run na frames).1.master.Receives := by
  induction frames using List.reverseRecOn with
  | nil => exact nofun
  | append_singleton frames frame ih =>
      rw [AppAudio.run_concat]
      cases frame with
      | slave f => exact ih
      | master f => exact receives_pumpMaster ih f
      | edit sendEnabled format => exact ih

/-- A frame whose playback device works pushes all that decodes and leaves
nothing on the socket, in the order of arrival, just if nothing before the
last datagram fails to decode. -/
theorem packet_drain_iff (prior : List AppFrame) {playback : AudioPlayback} (hServer : f.tcpServer = some info)
    (hUp : info.state = .connected) (hSending : info.peerAudio.sendEnabled = true) :
    let state := (({} : AppAudio).run na prior).1.master
    (atPackets na info f state).audioPlayback = some playback →
      ∃ channel, (atPackets na info f state).audioRecvChannel = some channel ∧
        ((pumpMaster na f state).1.audioPlayback =
            some { playback with
              buffer := pushPackets playback.buffer (f.queue.filterMap (decodePacket na channel.key)) } ∧
          leftOnSocket na f state = [] ↔
          ∀ datagram ∈ f.queue.dropLast, (decodePacket na channel.key datagram).isSome = true) := by
  intro state hPlayback
  have hReceives : (atPackets na info f state).Receives := receives_atPackets (receives_run na prior)
  obtain ⟨channel, hChannel⟩ := Option.isSome_iff_exists.mp (hReceives (hPlayback ▸ rfl))
  have hLeft : leftOnSocket na f state = (receivePackets na channel.key f.queue playback.buffer).2 := by
    simp [leftOnSocket, hServer, hUp, hSending, hPlayback, hChannel]
  refine ⟨channel, hChannel, ?_⟩
  rw [hLeft, pumpMaster_atPackets hServer hUp hSending, audioPlayback_playPackets hPlayback hChannel,
    ← receivePackets_left channel.key f.queue playback.buffer]
  constructor
  · exact And.right
  · intro hEmptied
    exact ⟨by rw [receivePackets_pushed hEmptied], hEmptied⟩

end Frame

def streaming : ConnectionInfo :=
  { state := .connected, peerAudio := { sendEnabled := true, sampleRate := 48000, bitDepth := 16 } }

def goodPacket : List UInt8 :=
  encodeFrame plainSodium (deriveAudioKey plainSodium streaming.audioKey) 7 [1, 2]

/-- One stray byte ahead of it keeps a packet on the socket, and out
of the buffer. -/
theorem stray_delays_packet :
    let f : MasterFrame := { tcpServer := some streaming, queue := [[0], goodPacket] }
    let key := deriveAudioKey plainSodium streaming.audioKey
    (pumpMaster plainSodium f {}).1.audioPlayback.map (fun p => p.buffer.depth) = some 0 ∧
      decodePacket plainSodium key goodPacket = some (7, [1, 2]) ∧
      leftOnSocket plainSodium f {} = [goodPacket] := by
  decide +kernel

/-- Behind the packet the stray byte does no harm. -/
theorem packet_drain_stray_last :
    leftOnSocket plainSodium { tcpServer := some streaming, queue := [goodPacket, [0]] }
      (({} : AppAudio).run plainSodium []).1.master = [] := by
  let f : MasterFrame := { tcpServer := some streaming, queue := [goodPacket, [0]] }
  obtain ⟨channel, hChannel, hDrained⟩ := @packet_drain_iff plainSodium streaming f [] _ rfl rfl rfl rfl
  refine (hDrained.mpr ?_).2
  cases hChannel
  decide +kernel

end NoCapKVM.App
