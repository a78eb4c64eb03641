import Mathlib.Data.List.ReduceOption
import NoCapKVM.Audio.Channel
import NoCapKVM.Audio.JitterBuffer

/-! `audio/playback.cpp`: the callback of the playback device. Packets are a stream of
bytes to it, and what is left of one packet waits for the next callback. -/
namespace NoCapKVM.Audio

def kChannels : Nat := 2

inductive MaFormat where
  | u8
  | s16
  deriving DecidableEq

def toMaFormat (bitDepth : UInt8) : MaFormat :=
  if bitDepth = 8 then .u8 else .s16

def maGetBytesPerFrame (format : MaFormat) (channels : Nat) : Nat :=
  match format with
  | .u8 => 1 * channels
  | .s16 => 2 * channels

/-- A packet on its way into the buffer: its number and its frame. -/
abbrev Arrival := UInt32 × List UInt8

/-- `format` is the one the device was configured with. The buffer and
the counters of the process are used by the thread that receives
packets as well. -/
structure PlaybackImpl where
  buffer : JitterBuffer (List UInt8)
  counters : Counters := {}
  format : MaFormat
  silenceByte : UInt8
  carry : List UInt8 := []
  carryPos : Nat := 0

def PlaybackImpl.start (buffer : JitterBuffer (List UInt8)) (format : AudioFormat) : PlaybackImpl :=
  { buffer := buffer
    format := toMaFormat format.bitDepth
    silenceByte := if format.bitDepth = 8 then 0x80 else 0x00 }

/-- The part of `carry` that no callback has written. -/
def PlaybackImpl.unread (impl : PlaybackImpl) : List UInt8 :=
  impl.carry.drop impl.carryPos

def JitterBuffer.receive (b : JitterBuffer (List UInt8)) (packets : List Arrival) : JitterBuffer (List UInt8) :=
  packets.foldl (fun b p => (b.pushLocked p.1 p.2).1) b

/-- `push_frame` on the other thread. -/
def PlaybackImpl.pushFrame (impl : PlaybackImpl) (packet : Arrival) : PlaybackImpl :=
  let pushed := JitterBuffer.push impl.counters impl.buffer packet.1 packet.2
  { impl with counters := pushed.1, buffer := pushed.2 }

def PlaybackImpl.receive (impl : PlaybackImpl) (packets : List Arrival) : PlaybackImpl :=
  packets.foldl PlaybackImpl.pushFrame impl

/-- The locals of `data_callback`, with the results of its pops. -/
structure Writing where
  impl : PlaybackImpl
  out : List UInt8 := []
  remaining : Nat
  pops : List (Option (List UInt8)) := []

namespace Writing

/-- The copy at the end of a pass. -/
def copy (w : Writing) : Writing :=
  let n := min w.remaining (w.impl.carry.length - w.impl.carryPos)
  { w with
    impl := { w.impl with carryPos := w.impl.carryPos + n }
    out := w.out ++ (w.impl.carry.drop w.impl.carryPos).take n
    remaining := w.remaining - n }

/-- `pop()` after packets that have come in on the other thread. The result
says whether there was a frame. -/
def fetch (w : Writing) (arrived : List Arrival) : Bool × Writing :=
  let impl := w.impl.receive arrived
  let popped := impl.buffer.pop
  match popped.1 with
  | none => (false, { w with impl := { impl with buffer := popped.2 }, pops := w.pops ++ [none] })
  | some frame =>
      (true, { w with
        impl := { impl with buffer := popped.2, carry := frame, carryPos := 0 }
        pops := w.pops ++ [some frame] })

end Writing

/-- A push adds at most one packet, since a number that is there already is
overwritten. -/
theorem JitterBuffer.size_pushLocked_le {φ : Type} (b : JitterBuffer φ) (seq : UInt32) (frame : φ) :
    (b.pushLocked seq frame).1.buffer.size ≤ b.buffer.size + 1 := by
  have hStore : (b.store seq frame).buffer.size ≤ b.buffer.size + 1 := by
    have hErase := b.buffer.size_erase_le seq
    have hInsert := b.buffer.size_insert seq frame
    change (b.buffer.insert seq frame).size ≤ b.buffer.size + 1
    omega
  have hCap (c : JitterBuffer φ) : c.dropToCap.1.buffer.size ≤ c.buffer.size := by
    induction c using dropToCap.induct with
    | case1 c hOver ih =>
        rw [dropToCap, if_pos hOver]
        exact Nat.le_trans ih (c.size_dropOldest ▸ Nat.sub_le _ _)
    | case2 c hFits =>
        rw [dropToCap, if_neg hFits]
  unfold pushLocked
  split
  · exact Nat.le_succ _
  · obtain ⟨atCap, episodes, hNote⟩ := noteDropped_eq (b.store seq frame).dropToCap.1 (b.store seq frame).dropToCap.2
    dsimp only
    rw [hNote]
    exact Nat.le_trans (hCap _) hStore

/-- So the packets that arrive add at most as many as they are. -/
theorem JitterBuffer.size_receive_le (b : JitterBuffer (List UInt8)) (packets : List Arrival) :
    (b.receive packets).buffer.size ≤ b.buffer.size + packets.length := by
  induction packets generalizing b with
  | nil => exact Nat.le_refl _
  | cons packet packets ih =>
      have hRest := ih (b.pushLocked packet.1 packet.2).1
      have hOne := b.size_pushLocked_le packet.1 packet.2
      change ((b.pushLocked packet.1 packet.2).1.receive packets).buffer.size ≤ b.buffer.size + (packets.length + 1)
      omega

/-- A pop that returns a packet takes it out, which is why the loop of a
callback ends. -/
theorem JitterBuffer.size_pop {φ : Type} {b : JitterBuffer φ} (hPop : b.pop.1.isSome) :
    b.pop.2.buffer.size < b.buffer.size := by
  have hPopped := pop_popped b
  generalize b.pop = result at hPopped hPop ⊢
  cases hPopped with
  | filling => cases hPop
  | missed => cases hPop
  | resynced => cases hPop
  | played s frame atCap hStart hFind =>
      have hSame : s.buffer = b.buffer := by
        rcases startPlayback_eq_some hStart with ⟨-, rfl⟩ | ⟨-, -, rfl⟩ <;> rfl
      have hTaken := OrderedMap.size_erase_of_find? hFind
      rw [hSame] at hTaken
      change (s.buffer.erase s.nextSeq).size < b.buffer.size
      rw [hSame]
      omega

/-- Arrivals in groups: what follows a pop that found a packet is less. -/
theorem JitterBuffer.left_lt {b : JitterBuffer (List UInt8)} {arrivals : List (List Arrival)}
    (hPop : (b.receive (arrivals.headD [])).pop.1.isSome) :
    arrivals.tail.flatten.length + (b.receive (arrivals.headD [])).pop.2.buffer.size <
      arrivals.flatten.length + b.buffer.size := by
  have hSize := size_pop hPop
  have hReceived := b.size_receive_le (arrivals.headD [])
  have hLength : arrivals.flatten.length = (arrivals.headD []).length + arrivals.tail.flatten.length := by
    cases arrivals with
    | nil => rfl
    | cons arrived arrivals => exact List.length_append
  omega

/-- How many packets pops in a row would return, before the first
that finds none. -/
def JitterBuffer.supply (b : JitterBuffer (List UInt8)) (arrivals : List (List Arrival)) : Nat :=
  if (b.receive (arrivals.headD [])).pop.1.isSome then
    (b.receive (arrivals.headD [])).pop.2.supply arrivals.tail + 1
  else 0
  termination_by arrivals.flatten.length + b.buffer.size
  decreasing_by exact left_lt ‹_›

namespace PlaybackImpl

@[simp] theorem receive_nil (impl : PlaybackImpl) : impl.receive [] = impl := rfl

@[simp] theorem receive_cons (impl : PlaybackImpl) (packet : Arrival) (packets : List Arrival) :
    impl.receive (packet :: packets) = (impl.pushFrame packet).receive packets := rfl

/-- The callback's own state is its own. -/
theorem receive_kept (impl : PlaybackImpl) (packets : List Arrival) :
    (impl.receive packets).carry = impl.carry ∧ (impl.receive packets).carryPos = impl.carryPos ∧
      (impl.receive packets).format = impl.format ∧ (impl.receive packets).silenceByte = impl.silenceByte := by
  induction packets generalizing impl with
  | nil => exact ⟨rfl, rfl, rfl, rfl⟩
  | cons packet packets ih => exact ih (impl.pushFrame packet)

/-- What arrives during a callback goes into the buffer and nowhere else. -/
theorem receive_buffer (impl : PlaybackImpl) (packets : List Arrival) :
    (impl.receive packets).buffer = impl.buffer.receive packets := by
  induction packets generalizing impl with
  | nil => rfl
  | cons packet packets ih => exact ih (impl.pushFrame packet)

end PlaybackImpl

namespace Writing

/-- A pop that finds nothing leaves the carry as it was. -/
theorem fetch_none {w : Writing} {arrived : List Arrival} (hPop : (w.impl.receive arrived).buffer.pop.1 = none) :
    w.fetch arrived = (false, { w with
      impl := { w.impl.receive arrived with buffer := (w.impl.receive arrived).buffer.pop.2 }
      pops := w.pops ++ [none] }) := by
  simp only [fetch, hPop]

/-- A pop that finds a frame makes it the carry, to be copied
from its start. -/
theorem fetch_some {w : Writing} {arrived : List Arrival} {frame : List UInt8}
    (hPop : (w.impl.receive arrived).buffer.pop.1 = some frame) :
    w.fetch arrived = (true, { w with
      impl := { w.impl.receive arrived with
        buffer := (w.impl.receive arrived).buffer.pop.2, carry := frame, carryPos := 0 }
      pops := w.pops ++ [some frame] }) := by
  simp only [fetch, hPop]

/-- Either way the result of the pop is noted. -/
theorem fetch_pops (w : Writing) (arrived : List Arrival) :
    (w.fetch arrived).2.pops = w.pops ++ [(w.impl.receive arrived).buffer.pop.1] := by
  cases hPop : (w.impl.receive arrived).buffer.pop.1 with
  | none => rw [fetch_none hPop]
  | some frame => rw [fetch_some hPop]

/-- The buffer is that after the pop. -/
theorem fetch_buffer (w : Writing) (arrived : List Arrival) :
    (w.fetch arrived).2.impl.buffer = (w.impl.receive arrived).buffer.pop.2 := by
  cases hPop : (w.impl.receive arrived).buffer.pop.1 with
  | none => rw [fetch_none hPop]
  | some frame => rw [fetch_some hPop]

/-- A fetch succeeds only with a frame. -/
theorem isSome_of_fetch {w : Writing} {arrived : List Arrival} (hFetch : (w.fetch arrived).1 = true) :
    (w.impl.receive arrived).buffer.pop.1.isSome := by
  cases hPop : (w.impl.receive arrived).buffer.pop.1 with
  | none =>
      rw [fetch_none hPop] at hFetch
      cases hFetch
  | some frame => rfl

/-- It fails only without one. -/
theorem none_of_fetch {w : Writing} {arrived : List Arrival} (hFetch : ¬ (w.fetch arrived).1 = true) :
    (w.impl.receive arrived).buffer.pop.1 = none := by
  cases hPop : (w.impl.receive arrived).buffer.pop.1 with
  | none => rfl
  | some frame =>
      rw [fetch_some hPop] at hFetch
      exact absurd rfl hFetch

/-- A copy from a carry that is not used up writes at least one byte. -/
theorem copy_lt {w : Writing} (hRemaining : 0 < w.remaining) (hCarry : w.impl.carryPos < w.impl.carry.length) :
    w.copy.remaining < w.remaining := by
  simp only [copy]
  omega

/-- The packets still to come, those in the buffer and the bytes to write. -/
def left (w : Writing) (arrivals : List (List Arrival)) : Nat :=
  arrivals.flatten.length + w.impl.buffer.buffer.size + w.remaining

/-- A pass with a packet leaves less. -/
theorem fetch_left {w : Writing} {arrivals : List (List Arrival)} (hFetch : (w.fetch (arrivals.headD [])).1 = true) :
    (w.fetch (arrivals.headD [])).2.left arrivals.tail < w.left arrivals := by
  have hSome := isSome_of_fetch hFetch
  obtain ⟨frame, hPop⟩ := Option.isSome_iff_exists.mp hSome
  rw [fetch_some hPop]
  simp only [left, PlaybackImpl.receive_buffer] at hSome ⊢
  exact Nat.add_lt_add_right (JitterBuffer.left_lt hSome) _

/-- The loop. Between its pops the packets of `arrivals` come in, one group
before each. -/
def fill (w : Writing) (arrivals : List (List Arrival)) : Writing :=
  if 0 < w.remaining then
    if w.impl.carry.length ≤ w.impl.carryPos then
      let fetched := w.fetch (arrivals.headD [])
      if fetched.1 then
        if fetched.2.impl.carry.isEmpty then fetched.2.fill arrivals.tail
        else fetched.2.copy.fill arrivals.tail
      else fetched.2
    else w.copy.fill arrivals
  else w
  termination_by w.left arrivals
  decreasing_by
    · next hFetched _ => exact fetch_left hFetched
    · next hFetched _ =>
        exact Nat.lt_of_le_of_lt (Nat.add_le_add_left (Nat.sub_le _ _) _) (fetch_left hFetched)
    · next hRemaining hCarry => exact Nat.add_lt_add_left (copy_lt hRemaining (Nat.lt_of_not_le hCarry)) _

/-- A copy from an empty carry writes nothing. -/
theorem copy_of_empty {w : Writing} (hEmpty : w.impl.carry.isEmpty = true) : w.copy = w := by
  have hNil : w.impl.carry = [] := List.isEmpty_iff.mp hEmpty
  obtain ⟨⟨buffer, counters, format, silenceByte, carry, carryPos⟩, out, remaining, pops⟩ := w
  simp only at hNil
  subst hNil
  simp [copy]

/-- The ways a pass can go. A packet without bytes makes no difference
to the copy. -/
theorem fill_induction {motive : Writing → List (List Arrival) → Writing → Prop}
    (met : ∀ w arrivals, w.remaining = 0 → motive w arrivals w)
    (copied : ∀ w arrivals, 0 < w.remaining → w.impl.carryPos < w.impl.carry.length →
      motive w.copy arrivals (w.copy.fill arrivals) → motive w arrivals (w.copy.fill arrivals))
    (popped : ∀ w arrivals, 0 < w.remaining → w.impl.carry.length ≤ w.impl.carryPos →
      (w.fetch (arrivals.headD [])).1 = true →
      motive (w.fetch (arrivals.headD [])).2.copy arrivals.tail
        ((w.fetch (arrivals.headD [])).2.copy.fill arrivals.tail) →
      motive w arrivals ((w.fetch (arrivals.headD [])).2.copy.fill arrivals.tail))
    (dry : ∀ w arrivals, 0 < w.remaining → w.impl.carry.length ≤ w.impl.carryPos →
      ¬ (w.fetch (arrivals.headD [])).1 = true → motive w arrivals (w.fetch (arrivals.headD [])).2)
    (w : Writing) (arrivals : List (List Arrival)) : motive w arrivals (w.fill arrivals) := by
  induction w, arrivals using fill.induct with
  | case1 w arrivals hRemaining hCarry fetched hFetched hEmpty ih =>
      rw [fill, if_pos hRemaining, if_pos hCarry]
      simp only [fetched] at hFetched hEmpty ih
      simp only [hFetched, hEmpty, if_true]
      rw [← copy_of_empty hEmpty] at ih ⊢
      exact popped w arrivals hRemaining hCarry hFetched ih
  | case2 w arrivals hRemaining hCarry fetched hFetched hFull ih =>
      rw [fill, if_pos hRemaining, if_pos hCarry]
      simp only [fetched] at hFetched hFull ih
      simp only [hFetched, hFull, if_true, Bool.false_eq_true, if_false]
      exact popped w arrivals hRemaining hCarry hFetched ih
  | case3 w arrivals hRemaining hCarry fetched hDry =>
      rw [fill, if_pos hRemaining, if_pos hCarry]
      simp only [fetched] at hDry
      simp only [hDry, Bool.false_eq_true, if_false]
      exact dry w arrivals hRemaining hCarry hDry
  | case4 w arrivals hRemaining hCarry ih =>
      rw [fill, if_pos hRemaining, if_neg hCarry]
      exact copied w arrivals hRemaining (Nat.lt_of_not_le hCarry) ih
  | case5 w arrivals hMet =>
      rw [fill, if_neg hMet]
      exact met w arrivals (Nat.eq_zero_of_not_pos hMet)

end Writing

/-- What a callback has written to the device, and how: `sound` is what its
loop copied, `silence` the number of bytes that were left to fill. -/
structure Played where
  frameCount : Nat
  output : List UInt8
  sound : List UInt8
  silence : Nat
  pops : List (Option (List UInt8))
  underruns : Nat

namespace PlaybackImpl

def request (impl : PlaybackImpl) (frameCount : Nat) : Nat :=
  frameCount * maGetBytesPerFrame impl.format kChannels

def dataCallback (impl : PlaybackImpl) (frameCount : Nat) (arrivals : List (List Arrival)) : PlaybackImpl × Played :=
  let w := Writing.fill { impl := impl, remaining := impl.request frameCount } arrivals
  (w.impl,
    { frameCount := frameCount
      output := w.out ++ List.replicate w.remaining impl.silenceByte
      sound := w.out
      silence := w.remaining
      pops := w.pops
      underruns := if 0 < w.remaining then 1 else 0 })

end PlaybackImpl

inductive PlaybackEvent where
  | push (packet : Arrival)
  | callback (frameCount : Nat) (arrivals : List (List Arrival))

def PlaybackEvent.frameCount? : PlaybackEvent → Option Nat
  | .push _ => none
  | .callback frameCount _ => some frameCount

namespace PlaybackImpl

def step (impl : PlaybackImpl) : PlaybackEvent → PlaybackImpl × List Played
  | .push packet => (impl.pushFrame packet, [])
  | .callback frameCount arrivals =>
      let (impl, played) := impl.dataCallback frameCount arrivals
      (impl, [played])

def run (impl : PlaybackImpl) : List PlaybackEvent → PlaybackImpl × List Played
  | [] => (impl, [])
  | event :: events =>
      let rest := (impl.step event).1.run events
      (rest.1, (impl.step event).2 ++ rest.2)

@[simp] theorem run_nil (impl : PlaybackImpl) : impl.run [] = (impl, []) := rfl

@[simp] theorem run_push (impl : PlaybackImpl) (packet : Arrival) (events : List PlaybackEvent) :
    impl.run (.push packet :: events) = (impl.pushFrame packet).run events := rfl

/-- A run notes what each of its callbacks has written. -/
@[simp] theorem run_callback (impl : PlaybackImpl) (frameCount : Nat) (arrivals : List (List Arrival))
    (events : List PlaybackEvent) :
    impl.run (.callback frameCount arrivals :: events) =
      (((impl.dataCallback frameCount arrivals).1.run events).1,
        (impl.dataCallback frameCount arrivals).2 :: ((impl.dataCallback frameCount arrivals).1.run events).2) := rfl

end PlaybackImpl

namespace Writing

/-- From `w` to `r` the bytes `sound` were written and the results
`popped` returned: the sound and what is left unread is what was unread
and the frames. -/
structure Wrote (w r : Writing) (sound : List UInt8) (popped : List (Option (List UInt8))) : Prop where
  out : r.out = w.out ++ sound
  pops : r.pops = w.pops ++ popped
  remaining : sound.length + r.remaining = w.remaining
  stream : sound ++ r.impl.unread = w.impl.unread ++ popped.reduceOption.flatten
  format : r.impl.format = w.impl.format
  silenceByte : r.impl.silenceByte = w.impl.silenceByte

/-- Nothing was written yet. -/
theorem Wrote.refl (w : Writing) : Wrote w w [] [] where
  out := (List.append_nil _).symm
  pops := (List.append_nil _).symm
  remaining := Nat.zero_add _
  stream := (List.append_nil _).symm
  format := rfl
  silenceByte := rfl

/-- What two parts of a loop have written, the whole has written
in this order. -/
theorem Wrote.trans {w m r : Writing} {sound more : List UInt8} {popped others : List (Option (List UInt8))}
    (hFirst : Wrote w m sound popped) (hSecond : Wrote m r more others) :
    Wrote w r (sound ++ more) (popped ++ others) where
  out := by rw [hSecond.out, hFirst.out, List.append_assoc]
  pops := by rw [hSecond.pops, hFirst.pops, List.append_assoc]
  remaining := by
    have hFirst := hFirst.remaining
    have hSecond := hSecond.remaining
    rw [List.length_append]
    omega
  stream := by
    rw [List.append_assoc, hSecond.stream, ← List.append_assoc, hFirst.stream, List.append_assoc,
      List.reduceOption_append, List.flatten_append]
  format := hSecond.format.trans hFirst.format
  silenceByte := hSecond.silenceByte.trans hFirst.silenceByte

/-- A copy writes the next bytes of the carry, as many as are there
and asked for. -/
theorem copy_wrote (w : Writing) :
    Wrote w w.copy (w.impl.unread.take (min w.remaining (w.impl.carry.length - w.impl.carryPos))) [] where
  out := rfl
  pops := (List.append_nil _).symm
  remaining := by
    simp only [copy, PlaybackImpl.unread, List.length_take, List.length_drop]
    omega
  stream := by
    simp only [copy, PlaybackImpl.unread]
    rw [← List.drop_drop, List.take_append_drop]
    exact (List.append_nil _).symm
  format := rfl
  silenceByte := rfl

/-- A pop comes when nothing is unread. -/
theorem fetch_wrote {w : Writing} (hCarry : w.impl.carry.length ≤ w.impl.carryPos) (arrived : List Arrival) :
    Wrote w (w.fetch arrived).2 [] [(w.impl.receive arrived).buffer.pop.1] := by
  obtain ⟨hKeptCarry, hKeptPos, hFormat, hSilence⟩ := w.impl.receive_kept arrived
  have hUnread : w.impl.unread = [] := List.drop_eq_nil_of_le hCarry
  cases hPop : (w.impl.receive arrived).buffer.pop.1 with
  | none =>
      rw [fetch_none hPop]
      refine ⟨(List.append_nil _).symm, rfl, Nat.zero_add _, ?_, hFormat, hSilence⟩
      simp only [PlaybackImpl.unread, hKeptCarry, hKeptPos]
      exact (List.append_nil _).symm
  | some frame =>
      rw [fetch_some hPop]
      refine ⟨(List.append_nil _).symm, rfl, Nat.zero_add _, ?_, hFormat, hSilence⟩
      rw [hUnread]
      exact (List.append_nil frame).symm

/-- How the loop ends, if the buffer could return `supply` packets in a row:
the request is met and every pop has returned one, or all of them are played
and the last pop has returned nothing. -/
inductive Ended (r : Writing) (supply : Nat) : List (Option (List UInt8)) → Prop
  | met (frames : List (List UInt8)) (hMet : r.remaining = 0) (hSupply : frames.length ≤ supply) :
      Ended r supply (frames.map some)
  | dry (frames : List (List UInt8)) (hLeft : 0 < r.remaining) (hUnread : r.impl.unread = [])
      (hSupply : frames.length = supply) : Ended r supply (frames.map some ++ [none])

/-- One more packet that could be popped, and was, changes nothing
about the end. -/
theorem Ended.cons {r : Writing} {supply : Nat} {popped : List (Option (List UInt8))} (hEnd : Ended r supply popped)
    (frame : List UInt8) : Ended r (supply + 1) (some frame :: popped) := by
  cases hEnd with
  | met frames hMet hSupply => exact .met (frame :: frames) hMet (Nat.succ_le_succ hSupply)
  | dry frames hLeft hUnread hSupply => exact .dry (frame :: frames) hLeft hUnread (congrArg (· + 1) hSupply)

/-- A fetch that succeeds uses up one of the packets that could
be returned. -/
theorem supply_of_fetch {w : Writing} {arrivals : List (List Arrival)}
    (hFetch : (w.fetch (arrivals.headD [])).1 = true) :
    w.impl.buffer.supply arrivals = (w.fetch (arrivals.headD [])).2.impl.buffer.supply arrivals.tail + 1 := by
  have hSome := isSome_of_fetch hFetch
  obtain ⟨frame, hFrame⟩ := Option.isSome_iff_exists.mp hSome
  rw [fetch_some hFrame, JitterBuffer.supply, if_pos (PlaybackImpl.receive_buffer w.impl _ ▸ hSome),
    PlaybackImpl.receive_buffer]

/-- The loop writes the frames of its pops without a gap, and ends only when
the request is met or the buffer has nothing to return. -/
theorem fill_wrote (w : Writing) (arrivals : List (List Arrival)) :
    ∃ sound popped, Wrote w (w.fill arrivals) sound popped ∧
      Ended (w.fill arrivals) (w.impl.buffer.supply arrivals) popped := by
  induction w, arrivals using fill_induction with
  | met w arrivals hMet => exact ⟨[], [], .refl w, .met [] hMet (Nat.zero_le _)⟩
  | copied w arrivals hRemaining hCarry ih =>
      obtain ⟨sound, popped, hWrote, hEnd⟩ := ih
      exact ⟨_, _, (copy_wrote w).trans hWrote, hEnd⟩
  | popped w arrivals hRemaining hCarry hFetched ih =>
      obtain ⟨sound, popped, hWrote, hEnd⟩ := ih
      have hFetch := fetch_wrote hCarry (arrivals.headD [])
      obtain ⟨frame, hFrame⟩ := Option.isSome_iff_exists.mp (isSome_of_fetch hFetched)
      rw [hFrame] at hFetch
      exact ⟨_, _, (hFetch.trans (copy_wrote _)).trans hWrote, supply_of_fetch hFetched ▸ hEnd.cons frame⟩
  | dry w arrivals hRemaining hCarry hDry =>
      have hFetch := fetch_wrote hCarry (arrivals.headD [])
      have hNone : (w.impl.receive (arrivals.headD [])).buffer.pop.1 = none := none_of_fetch hDry
      have hSupply : w.impl.buffer.supply arrivals = 0 := by
        rw [JitterBuffer.supply, ← PlaybackImpl.receive_buffer, hNone]
        rfl
      have hKept := w.impl.receive_kept (arrivals.headD [])
      rw [hNone] at hFetch
      refine ⟨_, _, hFetch, .dry [] ?_ ?_ hSupply.symm⟩
      · rw [fetch_none hNone]
        exact hRemaining
      · rw [fetch_none hNone]
        simp only [PlaybackImpl.unread, hKept.1, hKept.2.1]
        exact List.drop_eq_nil_of_le hCarry

end Writing

/-- The frames that the pops of a callback returned. -/
def Played.frames (p : Played) : List (List UInt8) := p.pops.reduceOption

/-- A callback writes what it was asked for: sound, and silence behind it if
its last pop came back with nothing. -/
structure Played.Faithful (p : Played) (request : Nat) (silenceByte : UInt8) : Prop where
  output_eq : p.output = p.sound ++ List.replicate p.silence silenceByte
  length_eq : p.output.length = request
  silence_last : 0 < p.silence → p.pops.getLast? = some none

namespace PlaybackImpl

/-- So a callback writes sound as long as there is any, and
silence behind it. -/
theorem dataCallback_faithful (impl : PlaybackImpl) (frameCount : Nat) (arrivals : List (List Arrival)) :
    let r := impl.dataCallback frameCount arrivals
    r.2.Faithful (impl.request frameCount) impl.silenceByte ∧
      r.2.sound ++ r.1.unread = impl.unread ++ r.2.frames.flatten ∧
      r.1.format = impl.format ∧ r.1.silenceByte = impl.silenceByte := by
  intro r
  let w : Writing := { impl := impl, remaining := impl.request frameCount }
  obtain ⟨sound, popped, hWrote, hEnd⟩ := w.fill_wrote arrivals
  have hSound : r.2.sound = sound := hWrote.out
  have hPops : r.2.pops = popped := hWrote.pops
  refine ⟨⟨rfl, ?_, ?_⟩, ?_, hWrote.format, hWrote.silenceByte⟩
  · have hRemaining := hWrote.remaining
    have hOut : (w.fill arrivals).out = sound := hWrote.out
    simp only [r, dataCallback, List.length_append, List.length_replicate]
    change (w.fill arrivals).out.length + (w.fill arrivals).remaining = w.remaining
    rw [hOut]
    exact hRemaining
  · intro hSilence
    change 0 < (w.fill arrivals).remaining at hSilence
    rw [hPops]
    cases hEnd with
    | met frames hMet => exact absurd hMet (Nat.pos_iff_ne_zero.mp hSilence)
    | dry frames => exact List.getLast?_append_cons _ _ _
  · rw [Played.frames, hSound, hPops]
    exact hWrote.stream

/-- The bytes that were played and those that wait are the frames that
were popped. -/
theorem run_faithful (impl : PlaybackImpl) (events : List PlaybackEvent) :
    let r := impl.run events
    r.2.map Played.frameCount = events.filterMap PlaybackEvent.frameCount? ∧
      (∀ p ∈ r.2, p.Faithful (impl.request p.frameCount) impl.silenceByte) ∧
      r.2.flatMap Played.sound ++ r.1.unread = impl.unread ++ (r.2.flatMap Played.frames).flatten := by
  induction events generalizing impl with
  | nil => exact ⟨rfl, nofun, (List.append_nil _).symm⟩
  | cons event events ih =>
      cases event with
      | push packet => exact ih (impl.pushFrame packet)
      | callback frameCount arrivals =>
          obtain ⟨hOne, hStream, hFormat, hSilence⟩ := impl.dataCallback_faithful frameCount arrivals
          obtain ⟨hCounts, hAll, hRest⟩ := ih (impl.dataCallback frameCount arrivals).1
          refine ⟨congrArg (frameCount :: ·) hCounts, ?_, ?_⟩
          · intro p hMem
            rcases List.mem_cons.mp hMem with rfl | hMem
            · exact hOne
            · have hP := hAll p hMem
              rw [request, hFormat, hSilence] at hP
              exact hP
          · simp only [run_callback, List.flatMap_cons, List.flatten_append, List.append_assoc]
            rw [hRest, ← List.append_assoc, hStream, List.append_assoc]

end PlaybackImpl

/-- From the start of the device, every callback is given what it asked for,
and the sound so far with what is left of the last packet is all the packets
popped so far. -/
theorem faithful_stream (buffer : JitterBuffer (List UInt8)) (format : AudioFormat) (events : List PlaybackEvent) :
    let impl := PlaybackImpl.start buffer format
    let r := impl.run events
    r.2.map Played.frameCount = events.filterMap PlaybackEvent.frameCount? ∧
      (∀ p ∈ r.2, p.Faithful (impl.request p.frameCount) impl.silenceByte) ∧
      r.2.flatMap Played.sound ++ r.1.unread = (r.2.flatMap Played.frames).flatten := by
  intro impl r
  exact impl.run_faithful events

/-- A packet without bytes, one that comes in just in time, and then none. -/
example :
    ((PlaybackImpl.start (.new 2 10) { bitDepth := 8 }).run
      [.push (0, [1, 2, 3]), .push (1, []), .callback 2 [[], [(2, [4])]], .callback 1 []]).2.map Played.output =
      [[1, 2, 3, 4], [0x80, 0x80]] := by decide +kernel

end NoCapKVM.Audio
