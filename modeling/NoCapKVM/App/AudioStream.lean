import NoCapKVM.App.PacketDrain
import NoCapKVM.Audio.JitterEpisodes
import NoCapKVM.Discovery.PlainSodium

/-! The audio from the capture device of the Slave to the playback device of the Master, over
a network that may lose, repeat, delay and reorder datagrams and bring others. -/
namespace NoCapKVM.App

open Audio Discovery

/-- One stream: the two channels, the playback device, and what has been
captured, put on the wire and played so far. -/
structure AudioStream where
  sendChannel : AudioChannel
  recvChannel : AudioChannel
  playback : PlaybackImpl
  captured : List (List UInt8) := []
  wire : List (List UInt8) := []
  played : List Played := []
  episodes : Episodes (List UInt8) := {}

/-- The receive loop of the Master takes one datagram a pass. It also
runs while a callback does: `groups` are the datagrams it takes before
each of its pops. -/
inductive StreamMove where
  | capture (data : List UInt8)
  | receive (datagram : List UInt8)
  | callback (frameCount : Nat) (groups : List (List (List UInt8)))

def StreamMove.datagrams : StreamMove → List (List UInt8)
  | .capture _ => []
  | .receive datagram => [datagram]
  | .callback _ groups => groups.flatten

namespace AudioStream

section Moves

variable (na : Sodium UInt8)

/-- Both channels are made from the key of the session. -/
def start (transportKey : Key32 UInt8) (format : AudioFormat) : AudioStream where
  sendChannel := { key := deriveAudioKey na transportKey }
  recvChannel := { key := deriveAudioKey na transportKey }
  playback := .start (.new kTargetDepth kMaxDepth) format

def hear (s : AudioStream) (event : PlaybackEvent) : AudioStream :=
  { s with
    playback := (s.playback.step event).1
    played := s.played ++ (s.playback.step event).2
    episodes := s.episodes.after s.playback.buffer (s.playback.calls event) }

/-- The packets that the datagrams hold for the Master. -/
def accepted (s : AudioStream) (datagrams : List (List UInt8)) : List Arrival :=
  datagrams.filterMap (decodePacket na s.recvChannel.key)

def step (s : AudioStream) : StreamMove → AudioStream
  | .capture data =>
      let sent := s.sendChannel.sendTo data
      { s with
        sendChannel := sent.2
        captured := s.captured ++ [data]
        wire := s.wire ++ [sent.1.bytes na] }
  | .receive datagram =>
      match decodePacket na s.recvChannel.key datagram with
      | none => s
      | some packet => s.hear (.push packet)
  | .callback frameCount groups => s.hear (.callback frameCount (groups.map (s.accepted na)))

def run (s : AudioStream) (moves : List StreamMove) : AudioStream := moves.foldl (step na) s

/-- What decrypts under the key of the stream was sent on it. -/
def Genuine (s : AudioStream) (m : StreamMove) : Prop :=
  ∀ datagram ∈ m.datagrams, (decodePacket na s.recvChannel.key datagram).isSome → datagram.take kMaxPacketSize ∈ s.wire

instance (s : AudioStream) (m : StreamMove) : Decidable (s.Genuine na m) :=
  inferInstanceAs (Decidable (∀ datagram ∈ m.datagrams, _))

/-- Nobody else has the key. -/
def Unforged (s : AudioStream) : List StreamMove → Prop
  | [] => True
  | m :: moves => s.Genuine na m ∧ (s.step na m).Unforged moves

instance decidableUnforged (s : AudioStream) (moves : List StreamMove) : Decidable (s.Unforged na moves) :=
  match moves with
  | [] => inferInstanceAs (Decidable True)
  | m :: moves =>
      have := decidableUnforged (s.step na m) moves
      inferInstanceAs (Decidable (_ ∧ _))

end Moves

variable {na : Sodium UInt8}

/-- Datagrams on the wire carry the number of the place at which their data
was captured. -/
structure Carries (na : Sodium UInt8) (s : AudioStream) : Prop where
  keys : s.recvChannel.key = s.sendChannel.key
  counter : s.sendChannel.sendSeq = UInt32.ofNat s.captured.length
  wire : ∀ datagram ∈ s.wire, ∃ i data, s.captured[i]? = some data ∧
    datagram = encodeFrame na s.sendChannel.key (UInt32.ofNat i) data

/-- What was played, with what waits in the device, is what the
episodes hold. -/
structure Follows (s : AudioStream) : Prop where
  valid : s.playback.buffer.Valid
  episodes : Episodes.Follows s.captured s.playback.buffer s.episodes
  bytes : s.played.flatMap Played.sound ++ s.playback.unread = s.episodes.all.flatten.flatten

/-- At the start nothing was captured and nothing is on its way. -/
theorem carries_start (transportKey : Key32 UInt8) (format : AudioFormat) :
    (start na transportKey format).Carries na where
  keys := rfl
  counter := rfl
  wire := nofun

/-- Nothing was played either. -/
theorem follows_start (transportKey : Key32 UInt8) (format : AudioFormat) : (start na transportKey format).Follows where
  valid := JitterBuffer.valid_new (by decide)
  episodes := Episodes.follows_new _ _
  bytes := rfl

/-- An accepted packet has the number and the data of a capture. -/
theorem Carries.accepted (hNa : na.AeadContract) {s : AudioStream} (h : s.Carries na)
    (hShort : s.captured.length ≤ 2 ^ 32) {datagram : List UInt8} (hWire : datagram.take kMaxPacketSize ∈ s.wire)
    {packet : Arrival} (hPacket : decodePacket na s.recvChannel.key datagram = some packet) :
    s.captured[packet.1.toNat]? = some packet.2 := by
  obtain ⟨i, data, hPlace, hEq⟩ := h.wire _ hWire
  obtain ⟨hInside, -⟩ := List.getElem?_eq_some_iff.mp hPlace
  rw [decodePacket, hEq, h.keys, decodeFrame_encodeFrame hNa] at hPacket
  obtain rfl := Option.some.inj hPacket
  rw [UInt32.toNat_ofNat_of_lt' (Nat.lt_of_lt_of_le hInside hShort)]
  exact hPlace

/-- What is heard follows what was captured, if its packets carry the bytes of
their places. -/
theorem Follows.hear {s : AudioStream} (h : s.Follows) {event : PlaybackEvent}
    (hCalls : Episodes.FromStream s.captured (s.playback.calls event))
    (hShort : s.captured.length + kMaxConsecutiveMisses < 2 ^ 32) : (s.hear event).Follows := by
  obtain ⟨hBuffer, hFrames⟩ := s.playback.step_calls event
  obtain ⟨-, -, hStream⟩ := s.playback.run_faithful [event]
  simp only [PlaybackImpl.run, List.append_nil] at hStream
  refine ⟨?_, ?_, ?_⟩
  · show (s.playback.step event).1.buffer.Valid
    rw [hBuffer]
    exact h.valid.run _
  · show Episodes.Follows s.captured (s.playback.step event).1.buffer _
    rw [hBuffer]
    exact h.episodes.after h.valid hCalls hShort
  · show (s.played ++ (s.playback.step event).2).flatMap Played.sound ++ (s.playback.step event).1.unread =
      (s.episodes.after s.playback.buffer (s.playback.calls event)).all.flatten.flatten
    rw [Episodes.after_flatten, List.flatMap_append, List.append_assoc, hStream, ← List.append_assoc, h.bytes, hFrames,
      List.flatten_append]

/-- The pushes of a callback are those of the packets that come in. -/
theorem mem_popCalls {n : Nat} {arrivals : List (List Arrival)} {seq : UInt32} {frame : List UInt8}
    (hMem : .push seq frame ∈ popCalls n arrivals) : (seq, frame) ∈ arrivals.flatten := by
  induction n generalizing arrivals with
  | zero => cases hMem
  | succ n ih =>
      rw [popCalls] at hMem
      rcases List.mem_append.mp hMem with hFirst | hRest
      · obtain ⟨p, hP, hEq⟩ := List.mem_map.mp hFirst
        obtain ⟨rfl, rfl⟩ := Call.push.inj hEq
        cases arrivals with
        | nil => cases hP
        | cons group arrivals => exact List.mem_append_left _ hP
      · rcases List.mem_cons.mp hRest with hPop | hRest
        · cases hPop
        · cases arrivals with
          | nil => exact ih hRest
          | cons group arrivals => exact List.mem_append_right _ (ih hRest)

/-- A move captures more, or nothing. -/
theorem captured_le (s : AudioStream) (m : StreamMove) : s.captured.length ≤ (s.step na m).captured.length := by
  cases m with
  | capture data =>
      show s.captured.length ≤ (s.captured ++ [data]).length
      rw [List.length_append]
      exact Nat.le_add_right _ _
  | receive datagram =>
      unfold step
      dsimp only
      split <;> exact Nat.le_refl _
  | callback frameCount groups => exact Nat.le_refl _

/-- Hearing an event is all that the Master's side does. -/
theorem Carries.hear {s : AudioStream} (h : s.Carries na) (event : PlaybackEvent) : (s.hear event).Carries na :=
  ⟨h.keys, h.counter, h.wire⟩

/-- Every packet on its way carries what was captured at its place, whatever
the network does with it. -/
theorem Carries.step {s : AudioStream} (h : s.Carries na) (m : StreamMove) : (s.step na m).Carries na := by
  cases m with
  | capture data =>
      refine ⟨h.keys, ?_, ?_⟩
      · show s.sendChannel.sendSeq + 1 = UInt32.ofNat (s.captured ++ [data]).length
        rw [h.counter, List.length_append, UInt32.ofNat_add]
        rfl
      · intro datagram hMem
        show ∃ i found, (s.captured ++ [data])[i]? = some found ∧ _
        rcases List.mem_append.mp hMem with hOld | hNew
        · obtain ⟨i, found, hPlace, hEq⟩ := h.wire datagram hOld
          obtain ⟨hInside, -⟩ := List.getElem?_eq_some_iff.mp hPlace
          exact ⟨i, found, (List.getElem?_append_left hInside).trans hPlace, hEq⟩
        · refine ⟨s.captured.length, data, List.getElem?_concat_length, ?_⟩
          rw [List.mem_singleton.mp hNew, ← h.counter]
          rfl
  | receive datagram =>
      unfold AudioStream.step
      dsimp only
      split
      · exact h
      · exact h.hear _
  | callback frameCount groups => exact h.hear _

/-- So a move that forges nothing leaves everything played in the order of
what was captured. -/
theorem Follows.step (hNa : na.AeadContract) {s : AudioStream} (h : s.Follows) (hCarries : s.Carries na) {m : StreamMove}
    (hGenuine : s.Genuine na m) (hShort : (s.step na m).captured.length + kMaxConsecutiveMisses < 2 ^ 32) :
    (s.step na m).Follows := by
  have hBefore : s.captured.length + kMaxConsecutiveMisses < 2 ^ 32 := by
    have hLe : s.captured.length ≤ (s.step na m).captured.length := s.captured_le m
    omega
  have hAccepted {datagram : List UInt8} {packet : Arrival} (hMem : datagram ∈ m.datagrams)
      (hPacket : decodePacket na s.recvChannel.key datagram = some packet) :
      s.captured[packet.1.toNat]? = some packet.2 :=
    hCarries.accepted hNa (by omega) (hGenuine datagram hMem (by rw [hPacket]; rfl)) hPacket
  cases m with
  | capture data => exact ⟨h.valid, h.episodes.append [data], h.bytes⟩
  | receive datagram =>
      unfold AudioStream.step
      dsimp only
      split
      case h_1 => exact h
      case h_2 packet hPacket =>
        refine h.hear ?_ hBefore
        intro seq frame hMem
        obtain ⟨rfl, rfl⟩ := Call.push.inj (List.mem_singleton.mp hMem)
        exact hAccepted List.mem_cons_self hPacket
  | callback frameCount groups =>
      refine h.hear ?_ hBefore
      intro seq frame hMem
      obtain ⟨arrived, hArrived, hIn⟩ := List.mem_flatten.mp (mem_popCalls hMem)
      obtain ⟨group, hGroup, rfl⟩ := List.mem_map.mp hArrived
      obtain ⟨datagram, hDatagram, hPacket⟩ := List.mem_filterMap.mp hIn
      exact hAccepted (List.mem_flatten.mpr ⟨group, hGroup, hDatagram⟩) hPacket

/-- So after a run at least as much is captured as before. -/
theorem captured_le_run (s : AudioStream) (moves : List StreamMove) :
    s.captured.length ≤ (s.run na moves).captured.length := by
  induction moves generalizing s with
  | nil => exact Nat.le_refl _
  | cons m moves ih => exact Nat.le_trans (s.captured_le m) (ih (s.step na m))

/-- And so does a run that forges nothing. -/
theorem Follows.run (hNa : na.AeadContract) {s : AudioStream} (h : s.Follows) (hCarries : s.Carries na)
    {moves : List StreamMove} (hUnforged : s.Unforged na moves)
    (hShort : (s.run na moves).captured.length + kMaxConsecutiveMisses < 2 ^ 32) : (s.run na moves).Follows := by
  induction moves generalizing s with
  | nil => exact h
  | cons m moves ih =>
      have hLe : (s.step na m).captured.length ≤ ((s.step na m).run na moves).captured.length :=
        (s.step na m).captured_le_run moves
      change ((s.step na m).run na moves).captured.length + _ < _ at hShort
      exact ih (h.step hNa hCarries hUnforged.1 (by omega)) (hCarries.step m) hUnforged.2 hShort

/-- Whatever the network does, the sound that the Master plays is made of the
episodes of its buffer, and each episode of data that the Slave has captured,
in the order of the capture and nothing of it twice. -/
theorem sound_was_captured (hNa : na.AeadContract) (transportKey : Key32 UInt8) (format : AudioFormat)
    (moves : List StreamMove) (hUnforged : (start na transportKey format).Unforged na moves)
    (hShort : ((start na transportKey format).run na moves).captured.length + kMaxConsecutiveMisses < 2 ^ 32) :
    let s := (start na transportKey format).run na moves
    s.played.flatMap Played.sound ++ s.playback.unread = s.episodes.all.flatten.flatten ∧
      ∀ episode ∈ s.episodes.all, episode.Sublist s.captured := by
  intro s
  have hFollows := (follows_start transportKey format).run hNa (carries_start transportKey format) hUnforged hShort
  exact ⟨hFollows.bytes, hFollows.episodes.all⟩

/-- Eight packets of one frame each. The network swaps two of them, repeats
one, loses the fifth, and brings a datagram of its own. -/
def lossyMoves : List StreamMove :=
  let packet (i : Nat) : List UInt8 :=
    encodeFrame plainSodium (deriveAudioKey plainSodium (Bytes.fill 32 7)) (UInt32.ofNat i) [i.toUInt8, 1]
  (List.range 9).map (fun i => .capture [i.toUInt8, 1]) ++
    ([1, 0, 0, 2, 3, 5, 6, 7, 8].map fun i => .receive (packet i)) ++
    [.receive [1, 2, 3], .callback 3 [], .callback 3 []]

/-- A packet is lost, and what is played around it was captured
in this order. -/
theorem sound_was_captured_lossy :
    let s := (start plainSodium (Bytes.fill 32 7) { bitDepth := 8 }).run plainSodium lossyMoves
    s.played.flatMap Played.sound = [0, 1, 1, 1, 2, 1, 3, 1] ∧
      s.played.flatMap Played.sound ++ s.playback.unread = s.episodes.all.flatten.flatten ∧
      ∀ episode ∈ s.episodes.all, episode.Sublist s.captured :=
  ⟨by decide +kernel,
    sound_was_captured plainSodium_contract.toAeadContract (Bytes.fill 32 7) { bitDepth := 8 } lossyMoves
      (by decide +kernel) (by decide +kernel)⟩

end AudioStream
end NoCapKVM.App
