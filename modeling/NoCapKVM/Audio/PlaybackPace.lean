import NoCapKVM.Audio.JitterOrder
import NoCapKVM.Audio.Playback

/-! Playback time against the position in the stream: what a missing packet costs. -/
namespace NoCapKVM.Audio

namespace JitterBuffer

/-- Every packet that waits has `size` bytes. -/
def Sized (size : Nat) (b : JitterBuffer (List UInt8)) : Prop :=
  ∀ e ∈ b.buffer.entries, e.2.length = size

theorem sized_new (size targetDepth maxDepth : Nat) : (new targetDepth maxDepth).Sized size := nofun

/-- The ceiling only takes packets away. -/
theorem mem_dropToCap {φ : Type} {b : JitterBuffer φ} {e : UInt32 × φ} (hMem : e ∈ b.dropToCap.1.buffer.entries) :
    e ∈ b.buffer.entries := by
  induction b using dropToCap.induct with
  | case1 b hOver ih =>
      rw [dropToCap, if_pos hOver] at hMem
      have hKept := ih hMem
      unfold dropOldest at hKept
      split at hKept
      · exact hKept
      · exact List.mem_of_mem_tail hKept
  | case2 b hFits =>
      rw [dropToCap, if_neg hFits] at hMem
      exact hMem

/-- A push of a packet of that size keeps the size. -/
theorem Sized.pushLocked {size : Nat} {b : JitterBuffer (List UInt8)} (hB : b.Sized size) {packet : Arrival}
    (hPacket : packet.2.length = size) : (b.pushLocked packet.1 packet.2).1.Sized size := by
  intro e hMem
  unfold JitterBuffer.pushLocked at hMem
  split at hMem
  · exact hB e hMem
  · obtain ⟨atCap, episodes, hNote⟩ :=
      noteDropped_eq (b.store packet.1 packet.2).dropToCap.1 (b.store packet.1 packet.2).dropToCap.2
    dsimp only at hMem
    rw [hNote] at hMem
    rcases OrderedMap.mem_insert.mp (mem_dropToCap hMem) with rfl | ⟨hOld, -⟩
    · exact hPacket
    · exact hB e hOld

/-- So do all the packets that arrive between two pops. -/
theorem Sized.receive {size : Nat} {b : JitterBuffer (List UInt8)} (hB : b.Sized size) {packets : List Arrival}
    (hPackets : ∀ p ∈ packets, p.2.length = size) : (b.receive packets).Sized size := by
  induction packets generalizing b with
  | nil => exact hB
  | cons packet packets ih =>
      have hRest := fun p hMem => hPackets p (List.mem_cons_of_mem packet hMem)
      exact ih (hB.pushLocked (hPackets packet List.mem_cons_self)) hRest

/-- A pop adds no packet. -/
theorem Sized.pop {size : Nat} {b : JitterBuffer (List UInt8)} (hB : b.Sized size) : b.pop.2.Sized size :=
  fun e hMem => hB e (mem_pop hMem)

/-- What is popped has the size of the packets that wait. -/
theorem Sized.frame {size : Nat} {b : JitterBuffer (List UInt8)} (hB : b.Sized size) {frame : List UInt8}
    (hPop : b.pop.1 = some frame) : frame.length = size := by
  obtain ⟨s, -, hMem, -⟩ := pop_eq_some hPop
  exact hB _ hMem

end JitterBuffer

namespace Writing

/-- The packets that wait and those that were popped have `size` bytes. -/
structure Sized (size : Nat) (w : Writing) : Prop where
  buffer : w.impl.buffer.Sized size
  pops : ∀ frame, some frame ∈ w.pops → frame.length = size

/-- Fetching the next frame of a callback keeps the size of what waits. -/
theorem Sized.fetch {size : Nat} {w : Writing} (hW : w.Sized size) {arrived : List Arrival}
    (hArrived : ∀ p ∈ arrived, p.2.length = size) : (w.fetch arrived).2.Sized size := by
  have hReceived : (w.impl.receive arrived).buffer.Sized size :=
    (w.impl.receive_buffer arrived).symm ▸ hW.buffer.receive hArrived
  constructor
  · rw [fetch_buffer]
    exact hReceived.pop
  · intro frame hMem
    rw [fetch_pops] at hMem
    rcases List.mem_append.mp hMem with hOld | hNew
    · exact hW.pops frame hOld
    · exact hReceived.frame (List.mem_singleton.mp hNew).symm

/-- So does filling the whole buffer of a callback. -/
theorem Sized.fill {size : Nat} {w : Writing} (hW : w.Sized size) {arrivals : List (List Arrival)}
    (hArrivals : ∀ p ∈ arrivals.flatten, p.2.length = size) : (w.fill arrivals).Sized size := by
  have hHead {arrivals : List (List Arrival)} (h : ∀ p ∈ arrivals.flatten, p.2.length = size) :
      (∀ p ∈ arrivals.headD [], p.2.length = size) ∧ ∀ p ∈ arrivals.tail.flatten, p.2.length = size := by
    cases arrivals with
    | nil => exact ⟨nofun, nofun⟩
    | cons arrived arrivals =>
        exact ⟨fun p hMem => h p (List.mem_append_left _ hMem), fun p hMem => h p (List.mem_append_right _ hMem)⟩
  induction w, arrivals using fill_induction with
  | met w arrivals hMet => exact hW
  | copied w arrivals hRemaining hCarry ih => exact ih ⟨hW.buffer, hW.pops⟩ hArrivals
  | popped w arrivals hRemaining hCarry hFetched ih =>
      have hNext := hW.fetch (hHead hArrivals).1
      exact ih ⟨hNext.buffer, hNext.pops⟩ (hHead hArrivals).2
  | dry w arrivals hRemaining hCarry hDry => exact hW.fetch (hHead hArrivals).1

end Writing

namespace PlaybackImpl

/-- The bytes that a callback can write before it comes to a packet that is
missing. -/
def available (size : Nat) (impl : PlaybackImpl) (arrivals : List (List Arrival)) : Nat :=
  impl.unread.length + size * impl.buffer.supply arrivals

/-- The callback does not come to a missing packet, or does so with just the
bytes of one packet left to write. -/
def OnPace (size : Nat) (impl : PlaybackImpl) (frameCount : Nat) (arrivals : List (List Arrival)) : Prop :=
  impl.request frameCount ≤ impl.available size arrivals ∨
    impl.request frameCount = impl.available size arrivals + size

theorem reduceOption_map_some (frames : List (List UInt8)) : (frames.map some).reduceOption = frames := by
  rw [List.reduceOption, List.filterMap_map]
  exact List.filterMap_some

/-- Frames of one size have together as many bytes as the size times
their number. -/
theorem flatten_length {size : Nat} {frames : List (List UInt8)} (hFrames : ∀ f ∈ frames, f.length = size) :
    frames.flatten.length = size * frames.length := by
  induction frames with
  | nil => rfl
  | cons frame frames ih =>
      rw [List.flatten_cons, List.length_append, List.length_cons, hFrames frame List.mem_cons_self,
        ih fun f hMem => hFrames f (List.mem_cons_of_mem frame hMem), Nat.mul_succ, Nat.add_comm]

/-- A callback that gets by keeps the account of bytes and packets. One that
comes to a missing packet plays all that there is, and fills the rest with
silence. -/
theorem dataCallback_account {size : Nat} {impl : PlaybackImpl} (hBuffer : impl.buffer.Sized size) (frameCount : Nat)
    {arrivals : List (List Arrival)} (hArrivals : ∀ p ∈ arrivals.flatten, p.2.length = size) :
    let r := impl.dataCallback frameCount arrivals
    impl.request frameCount ≤ impl.available size arrivals ∧
        impl.request frameCount + r.1.unread.length = impl.unread.length + size * r.2.pops.length ∨
      impl.available size arrivals < impl.request frameCount ∧ r.1.unread = [] ∧
        r.2.pops.length = impl.buffer.supply arrivals + 1 := by
  intro r
  let w : Writing := { impl := impl, remaining := impl.request frameCount }
  obtain ⟨sound, popped, hWrote, hEnd⟩ := w.fill_wrote arrivals
  have hSized : (w.fill arrivals).Sized size :=
    Writing.Sized.fill ⟨hBuffer, fun _ hMem => absurd hMem List.not_mem_nil⟩ hArrivals
  have hPops : (w.fill arrivals).pops = popped := hWrote.pops
  have hRemaining : sound.length + (w.fill arrivals).remaining = impl.request frameCount := hWrote.remaining
  have hStream := congrArg List.length hWrote.stream
  have hAll : ∀ f ∈ popped.reduceOption, f.length = size := by
    intro f hMem
    exact hSized.pops f (hPops ▸ List.reduceOption_mem_iff.mp hMem)
  rw [List.length_append, List.length_append, flatten_length hAll] at hStream
  change sound.length + r.1.unread.length = impl.unread.length + _ at hStream
  change (r.2.pops = popped) at hPops
  rw [hPops]
  cases hEnd with
  | met frames hMet hSupply =>
      rw [reduceOption_map_some] at hStream
      have hMost : size * frames.length ≤ size * impl.buffer.supply arrivals := Nat.mul_le_mul_left size hSupply
      rw [List.length_map]
      refine .inl ⟨?_, ?_⟩
      · unfold available
        omega
      · omega
  | dry frames hLeft hUnread hSupply =>
      have hFrames : (frames.map some ++ [none]).reduceOption = frames := by
        rw [List.reduceOption_append, reduceOption_map_some]
        exact List.append_nil frames
      change frames.length = impl.buffer.supply arrivals at hSupply
      have hNone : r.1.unread.length = 0 := congrArg List.length hUnread
      rw [hFrames, hSupply] at hStream
      refine .inr ⟨?_, hUnread, ?_⟩
      · unfold available
        omega
      · rw [List.length_append, List.length_map, hSupply]
        rfl

end PlaybackImpl

def PlaybackEvent.packets : PlaybackEvent → List Arrival
  | .push packet => [packet]
  | .callback _ arrivals => arrivals.flatten

/-- The bytes that callbacks have written, silence included. -/
def written (played : List Played) : Nat := (played.map fun p => p.output.length).sum

/-- The pops of callbacks. While playback is on, each takes up one
sequence number. -/
def consumed (played : List Played) : Nat := (played.map fun p => p.pops.length).sum

@[simp] theorem consumed_nil : consumed [] = 0 := rfl

/-- The pops of a run are those of its callbacks together. -/
@[simp] theorem consumed_cons (p : Played) (played : List Played) :
    consumed (p :: played) = p.pops.length + consumed played := List.sum_cons

@[simp] theorem consumed_append (played more : List Played) : consumed (played ++ more) = consumed played + consumed more := by
  simp [consumed]

namespace PlaybackImpl

/-- The bytes written since the first pop of a run are `size` for each of its
pops, less those unread. Before that pop the first callback has written what
was left of a packet. -/
def KeepsPace (size : Nat) (impl : PlaybackImpl) (events : List PlaybackEvent) : Prop :=
  (written (impl.run events).2 : Int) - impl.unread.length =
    size * consumed (impl.run events).2 - (impl.run events).1.unread.length

instance (size : Nat) (impl : PlaybackImpl) (events : List PlaybackEvent) : Decidable (impl.KeepsPace size events) :=
  inferInstanceAs (Decidable (_ = _))

/-- To keep pace is an equation between bytes written, bytes
unread and pops. -/
theorem keepsPace_iff (size : Nat) (impl : PlaybackImpl) (events : List PlaybackEvent) :
    impl.KeepsPace size events ↔
      written (impl.run events).2 + (impl.run events).1.unread.length =
        impl.unread.length + size * consumed (impl.run events).2 := by
  unfold KeepsPace
  rw [← Int.natCast_mul]
  omega

/-- A run in two parts is the second part after the first. -/
theorem run_append (impl : PlaybackImpl) (events more : List PlaybackEvent) :
    impl.run (events ++ more) =
      (((impl.run events).1.run more).1, (impl.run events).2 ++ ((impl.run events).1.run more).2) := by
  induction events generalizing impl with
  | nil => rfl
  | cons event events ih => simp only [List.cons_append, run, ih, List.append_assoc]

/-- Every event keeps the size of the packets that wait. -/
theorem sized_step {size : Nat} {impl : PlaybackImpl} (hBuffer : impl.buffer.Sized size) {event : PlaybackEvent}
    (hPackets : ∀ p ∈ event.packets, p.2.length = size) : (impl.step event).1.buffer.Sized size := by
  cases event with
  | push packet => exact hBuffer.pushLocked (hPackets packet List.mem_cons_self)
  | callback frameCount arrivals =>
      have hStart : Writing.Sized size { impl := impl, remaining := impl.request frameCount } :=
        ⟨hBuffer, fun _ hMem => absurd hMem List.not_mem_nil⟩
      exact (hStart.fill hPackets).buffer

/-- So does a run. -/
theorem sized_run {size : Nat} {impl : PlaybackImpl} (hBuffer : impl.buffer.Sized size) {events : List PlaybackEvent}
    (hPackets : ∀ e ∈ events, ∀ p ∈ e.packets, p.2.length = size) : (impl.run events).1.buffer.Sized size := by
  induction events generalizing impl with
  | nil => exact hBuffer
  | cons event events ih =>
      have hNext := sized_step hBuffer (hPackets event List.mem_cons_self)
      exact ih hNext fun e hMem => hPackets e (List.mem_cons_of_mem event hMem)

/-- A push neither writes nor pops. -/
theorem keepsPace_push (size : Nat) (impl : PlaybackImpl) (before : List PlaybackEvent) (packet : Arrival) :
    impl.KeepsPace size (before ++ [.push packet]) ↔ impl.KeepsPace size before := by
  unfold KeepsPace
  rw [run_append, run_push, run_nil, List.append_nil]
  rfl

/-- A callback keeps pace exactly when it is on pace: it writes as many bytes
as its pops account for. -/
theorem keepsPace_callback {size : Nat} {impl : PlaybackImpl} {before : List PlaybackEvent} (frameCount : Nat)
    {arrivals : List (List Arrival)} (hBuffer : (impl.run before).1.buffer.Sized size)
    (hArrivals : ∀ p ∈ arrivals.flatten, p.2.length = size) (hBefore : impl.KeepsPace size before) :
    impl.KeepsPace size (before ++ [.callback frameCount arrivals]) ↔
      (impl.run before).1.OnPace size frameCount arrivals := by
  have hAccount := dataCallback_account hBuffer frameCount hArrivals
  have hLength := ((impl.run before).1.dataCallback_faithful frameCount arrivals).1.length_eq
  have hWritten : written (impl.run (before ++ [.callback frameCount arrivals])).2 =
      written (impl.run before).2 + (impl.run before).1.request frameCount := by
    rw [run_append, run_callback, run_nil]
    simp [written, hLength]
  have hConsumed : size * consumed (impl.run (before ++ [.callback frameCount arrivals])).2 =
      size * consumed (impl.run before).2 +
        size * ((impl.run before).1.dataCallback frameCount arrivals).2.pops.length := by
    rw [run_append, run_callback, run_nil, ← Nat.mul_add, consumed_append, consumed_cons, consumed_nil, Nat.add_zero]
  have hUnread : (impl.run (before ++ [.callback frameCount arrivals])).1.unread =
      ((impl.run before).1.dataCallback frameCount arrivals).1.unread := by
    rw [run_append, run_callback, run_nil]
  rw [keepsPace_iff] at hBefore ⊢
  rw [hWritten, hConsumed, hUnread]
  unfold OnPace
  rcases hAccount with ⟨hEnough, hKept⟩ | ⟨hShort, hNone, hPops⟩
  · refine iff_of_true ?_ (.inl hEnough)
    omega
  · rw [hNone, hPops, Nat.mul_succ, List.length_nil]
    unfold available at hShort ⊢
    omega

end PlaybackImpl

/-- A pop takes up the number that is upcoming. -/
theorem JitterBuffer.pop_upcoming {φ : Type} {b : JitterBuffer φ} {first : UInt32} (hFirst : b.upcoming = some first) :
    b.pop.2.nextSeq = first + 1 ∧ (b.pop.1.isSome → b.pop.2.started = true) := by
  obtain ⟨s, hStart, rfl⟩ := Option.map_eq_some_iff.mp hFirst
  have hPopped := pop_popped b
  generalize b.pop = result at hPopped ⊢
  cases hPopped with
  | filling hNone => cases hStart.symm.trans hNone
  | missed m hM =>
      cases Option.some.inj (hStart.symm.trans hM)
      exact ⟨rfl, nofun⟩
  | resynced m atCap hM =>
      cases Option.some.inj (hStart.symm.trans hM)
      exact ⟨rfl, nofun⟩
  | played m frame atCap hM =>
      cases Option.some.inj (hStart.symm.trans hM)
      refine ⟨rfl, fun _ => ?_⟩
      rcases startPlayback_eq_some hStart with ⟨hStarted, rfl⟩ | ⟨-, -, rfl⟩
      · exact hStarted
      · rfl

/-- While playback is on, the next number is upcoming, whether its packet has
come or not. -/
theorem JitterBuffer.upcoming_of_started {φ : Type} {b : JitterBuffer φ} (hStarted : b.started = true) :
    b.upcoming = some b.nextSeq := by
  rw [upcoming, startPlayback, if_pos hStarted]
  rfl

/-- A push that drops nothing by the ceiling leaves the next
number as it is. -/
theorem JitterBuffer.pushLocked_undropped {φ : Type} {b : JitterBuffer φ} {seq : UInt32} {frame : φ}
    (hKept : (b.pushLocked seq frame).2 = 0) :
    (b.pushLocked seq frame).1.nextSeq = b.nextSeq ∧ (b.pushLocked seq frame).1.started = b.started := by
  unfold pushLocked at hKept ⊢
  split
  · exact ⟨rfl, rfl⟩
  · next hLate =>
      rw [if_neg hLate] at hKept
      have hFits : (b.store seq frame).dropToCap = (b.store seq frame, 0) := by
        rw [dropToCap] at hKept ⊢
        split at hKept
        · cases hKept
        · next hOver => rw [if_neg hOver]
      obtain ⟨atCap, episodes, hNote⟩ := noteDropped_eq (b.store seq frame) 0
      rw [hFits]
      dsimp only
      rw [hNote]
      exact ⟨rfl, rfl⟩

namespace PlaybackImpl

/-- The packets that pushes have dropped by the ceiling. -/
abbrev drops (impl : PlaybackImpl) : Nat := impl.counters.audioPacketsDroppedCap

theorem drops_pushFrame (impl : PlaybackImpl) (packet : Arrival) :
    (impl.pushFrame packet).drops = impl.drops + (impl.buffer.pushLocked packet.1 packet.2).2 := by
  simp only [pushFrame, drops, JitterBuffer.push]
  split
  · rfl
  · next hNone => exact (Nat.eq_zero_of_not_pos hNone).symm ▸ rfl

/-- The count of dropped packets only grows. -/
theorem drops_receive_le (impl : PlaybackImpl) (packets : List Arrival) : impl.drops ≤ (impl.receive packets).drops := by
  induction packets generalizing impl with
  | nil => exact Nat.le_refl _
  | cons packet packets ih =>
      have hRest := ih (impl.pushFrame packet)
      have hOne := impl.drops_pushFrame packet
      rw [receive_cons]
      omega

/-- What arrives does not depend on how far the current frame is played. -/
theorem receive_carryPos (impl : PlaybackImpl) (n : Nat) (packets : List Arrival) :
    receive { impl with carryPos := n } packets = { impl.receive packets with carryPos := n } := by
  induction packets generalizing impl with
  | nil => rfl
  | cons packet packets ih => exact ih (impl.pushFrame packet)

/-- Pushes that drop nothing leave playback where it is. -/
theorem receive_undropped {impl : PlaybackImpl} {packets : List Arrival}
    (hKept : (impl.receive packets).drops = impl.drops) :
    (impl.receive packets).buffer.nextSeq = impl.buffer.nextSeq ∧
      (impl.receive packets).buffer.started = impl.buffer.started := by
  induction packets generalizing impl with
  | nil => exact ⟨rfl, rfl⟩
  | cons packet packets ih =>
      have hRest := (impl.pushFrame packet).drops_receive_le packets
      have hOne := impl.drops_pushFrame packet
      rw [receive_cons] at hKept ⊢
      have hNone : (impl.buffer.pushLocked packet.1 packet.2).2 = 0 := by omega
      obtain ⟨hSeq, hStarted⟩ := @ih (impl.pushFrame packet) (by omega)
      have hPushed := JitterBuffer.pushLocked_undropped hNone
      exact ⟨hSeq.trans hPushed.1, hStarted.trans hPushed.2⟩

end PlaybackImpl

namespace Writing

theorem fetch_drops (w : Writing) (arrived : List Arrival) :
    (w.fetch arrived).2.impl.drops = (w.impl.receive arrived).drops := by
  cases hPop : (w.impl.receive arrived).buffer.pop.1 with
  | none => rw [fetch_none hPop]
  | some frame => rw [fetch_some hPop]

/-- A callback drops nothing but what arrives during it. -/
theorem drops_fill_le (w : Writing) (arrivals : List (List Arrival)) : w.impl.drops ≤ (w.fill arrivals).impl.drops := by
  have hFetch (w : Writing) (arrived : List Arrival) : w.impl.drops ≤ (w.fetch arrived).2.impl.drops :=
    w.fetch_drops arrived ▸ w.impl.drops_receive_le arrived
  induction w, arrivals using fill_induction with
  | met w arrivals hMet => exact Nat.le_refl _
  | copied w arrivals hRemaining hCarry ih => exact ih
  | popped w arrivals hRemaining hCarry hFetched ih => exact Nat.le_trans (hFetch w _) ih
  | dry w arrivals hRemaining hCarry hDry => exact hFetch w _

/-- From `w` to `r` as many numbers were taken up as there were pops, `first`
the first. -/
def TookUp (first : UInt32) (w r : Writing) : Prop :=
  ∃ n, r.pops.length = w.pops.length + n ∧ r.impl.buffer.nextSeq = first + UInt32.ofNat n

theorem TookUp.refl (w : Writing) : TookUp w.impl.buffer.nextSeq w w :=
  ⟨0, rfl, (UInt32.add_zero _).symm⟩

/-- A pop, and what the rest of the loop takes up. -/
theorem TookUp.cons {first : UInt32} {w next r : Writing} (hRest : TookUp (first + 1) next r)
    (hPops : next.pops.length = w.pops.length + 1) : TookUp first w r := by
  obtain ⟨n, hLength, hSeq⟩ := hRest
  refine ⟨n + 1, by omega, ?_⟩
  rw [hSeq, UInt32.ofNat_add, UInt32.add_assoc, UInt32.add_comm (UInt32.ofNat n)]
  rfl

/-- The pop of a pass, when playback is on or can start. -/
theorem fetch_tookUp {first : UInt32} {w : Writing} {arrived : List Arrival}
    (hFirst : (w.impl.receive arrived).buffer.upcoming = some first) :
    (w.fetch arrived).2.impl.buffer.nextSeq = first + 1 ∧
      ((w.fetch arrived).1 = true → (w.fetch arrived).2.impl.buffer.started = true) := by
  obtain ⟨hSeq, hStarted⟩ := JitterBuffer.pop_upcoming hFirst
  rw [fetch_buffer]
  exact ⟨hSeq, fun hFetched => hStarted (isSome_of_fetch hFetched)⟩

/-- The pop of a pass, and what the rest of the loop takes up. -/
theorem TookUp.fetch {first : UInt32} {w r : Writing} {arrived : List Arrival}
    (hFirst : (w.impl.receive arrived).buffer.upcoming = some first)
    (hRest : TookUp (w.fetch arrived).2.impl.buffer.nextSeq (w.fetch arrived).2 r) : TookUp first w r := by
  rw [(fetch_tookUp hFirst).1] at hRest
  apply hRest.cons
  rw [fetch_pops, List.length_append]
  rfl

/-- A callback in an episode takes up as many numbers as it pops, as long as
nothing is dropped. -/
theorem fill_tookUp {w : Writing} {arrivals : List (List Arrival)} (hStarted : w.impl.buffer.started = true)
    (hKept : (w.fill arrivals).impl.drops = w.impl.drops) :
    TookUp w.impl.buffer.nextSeq w (w.fill arrivals) := by
  have hUpcoming (w : Writing) (arrived : List Arrival) (hStarted : w.impl.buffer.started = true)
      (hKept : (w.impl.receive arrived).drops = w.impl.drops) :
      (w.impl.receive arrived).buffer.upcoming = some w.impl.buffer.nextSeq := by
    obtain ⟨hSeq, hOn⟩ := PlaybackImpl.receive_undropped hKept
    rw [JitterBuffer.upcoming_of_started (hOn.trans hStarted), hSeq]
  induction w, arrivals using fill_induction with
  | met w arrivals hMet => exact .refl w
  | copied w arrivals hRemaining hCarry ih => exact ih hStarted hKept
  | popped w arrivals hRemaining hCarry hFetched ih =>
      -- the drops before, between and after are the same
      have hDrops := w.fetch_drops (arrivals.headD [])
      have hBefore := w.impl.drops_receive_le (arrivals.headD [])
      have hAfter := (w.fetch (arrivals.headD [])).2.copy.drops_fill_le arrivals.tail
      change (w.fetch (arrivals.headD [])).2.impl.drops ≤ _ at hAfter
      have hFirst := hUpcoming w (arrivals.headD []) hStarted (by omega)
      exact .fetch hFirst (ih ((fetch_tookUp hFirst).2 hFetched)
        (by change _ = (w.fetch (arrivals.headD [])).2.impl.drops; omega))
  | dry w arrivals hRemaining hCarry hDry =>
      exact .fetch (hUpcoming w _ hStarted ((w.fetch_drops _).symm.trans hKept)) (.refl _)

/-- A callback that comes to a pop which starts playback. -/
theorem fill_tookUp_first {first : UInt32} {w : Writing} {arrivals : List (List Arrival)}
    (hReaches : w.impl.unread.length < w.remaining)
    (hFirst : (w.impl.receive (arrivals.headD [])).buffer.upcoming = some first) :
    (w.impl.receive (arrivals.headD [])).drops ≤ (w.fill arrivals).impl.drops ∧
      ((w.fill arrivals).impl.drops = (w.impl.receive (arrivals.headD [])).drops → TookUp first w (w.fill arrivals)) := by
  induction w, arrivals using fill_induction with
  | met w arrivals hMet => exact absurd hReaches (hMet ▸ Nat.not_lt_zero _)
  | copied w arrivals hRemaining hCarry ih =>
      have hCopy := w.impl.receive_carryPos w.copy.impl.carryPos (arrivals.headD [])
      change (PlaybackImpl.receive w.copy.impl (arrivals.headD [])) = _ at hCopy
      rw [hCopy] at ih
      refine ih ?_ hFirst
      simp only [copy, PlaybackImpl.unread, List.length_drop] at hReaches ⊢
      omega
  | popped w arrivals hRemaining hCarry hFetched ih =>
      have hDrops := w.fetch_drops (arrivals.headD [])
      have hAfter := (w.fetch (arrivals.headD [])).2.copy.drops_fill_le arrivals.tail
      refine ⟨hDrops ▸ hAfter, ?_⟩
      intro hKept
      exact .fetch hFirst (fill_tookUp (w := (w.fetch (arrivals.headD [])).2.copy) ((fetch_tookUp hFirst).2 hFetched)
        (hKept.trans hDrops.symm))
  | dry w arrivals hRemaining hCarry hDry =>
      exact ⟨Nat.le_of_eq (w.fetch_drops _).symm, fun _ => .fetch hFirst (.refl _)⟩

end Writing

namespace PlaybackImpl

/-- A callback whose first pop starts an episode of playback, and what
follows it while the episode lasts. No packet is dropped by the ceiling
after that pop. -/
structure Episode (impl : PlaybackImpl) (frameCount : Nat) (arrivals : List (List Arrival))
    (events : List PlaybackEvent) (first : UInt32) : Prop where
  reaches : impl.unread.length < impl.request frameCount
  stopped : (impl.receive (arrivals.headD [])).buffer.started = false
  starts : (impl.receive (arrivals.headD [])).buffer.upcoming = some first
  lasts : ∀ before after, events = before ++ after →
    ((impl.dataCallback frameCount arrivals).1.run before).1.buffer.started = true
  undropped : ((impl.dataCallback frameCount arrivals).1.run events).1.drops =
    (impl.receive (arrivals.headD [])).drops

/-- So no event makes the count of dropped packets smaller. -/
theorem drops_step_le (impl : PlaybackImpl) (event : PlaybackEvent) : impl.drops ≤ (impl.step event).1.drops := by
  cases event with
  | push packet => exact impl.drops_receive_le [packet]
  | callback frameCount arrivals =>
      exact Writing.drops_fill_le { impl := impl, remaining := impl.request frameCount } arrivals

/-- Nor does a run. -/
theorem drops_run_le (impl : PlaybackImpl) (events : List PlaybackEvent) : impl.drops ≤ (impl.run events).1.drops := by
  induction events generalizing impl with
  | nil => exact Nat.le_refl _
  | cons event events ih => exact Nat.le_trans (impl.drops_step_le event) (ih _)

/-- An event while playback is on. -/
theorem nextSeq_step {impl : PlaybackImpl} (hStarted : impl.buffer.started = true) {event : PlaybackEvent}
    (hKept : (impl.step event).1.drops = impl.drops) :
    (impl.step event).1.buffer.nextSeq = impl.buffer.nextSeq + UInt32.ofNat (consumed (impl.step event).2) := by
  cases event with
  | push packet =>
      have hReceived : (impl.receive [packet]).drops = impl.drops := hKept
      exact (receive_undropped hReceived).1.trans (UInt32.add_zero _).symm
  | callback frameCount arrivals =>
      let w : Writing := { impl := impl, remaining := impl.request frameCount }
      obtain ⟨n, hPops, hSeq⟩ : w.TookUp impl.buffer.nextSeq (w.fill arrivals) := Writing.fill_tookUp hStarted hKept
      have hConsumed : consumed (impl.step (.callback frameCount arrivals)).2 = n := hPops.trans (Nat.zero_add n)
      rw [hConsumed]
      exact hSeq

/-- In an episode without drops the next number is the first one plus the pops
since then. -/
theorem nextSeq_run {impl : PlaybackImpl} {events : List PlaybackEvent}
    (hLasts : ∀ before after, events = before ++ after → (impl.run before).1.buffer.started = true)
    (hKept : (impl.run events).1.drops = impl.drops) :
    (impl.run events).1.buffer.nextSeq = impl.buffer.nextSeq + UInt32.ofNat (consumed (impl.run events).2) := by
  induction events generalizing impl with
  | nil => exact (UInt32.add_zero _).symm
  | cons event events ih =>
      have hOne := impl.drops_step_le event
      have hMore := (impl.step event).1.drops_run_le events
      change ((impl.step event).1.run events).1.drops = impl.drops at hKept
      have hStarted : impl.buffer.started = true := hLasts [] (event :: events) rfl
      have hStep : (impl.step event).1.buffer.nextSeq = _ := nextSeq_step hStarted (by omega)
      have hRest := @ih (impl.step event).1 (fun before after hEq => hLasts (event :: before) after (congrArg _ hEq))
        (by omega)
      simp only [run, consumed_append, UInt32.ofNat_add]
      rw [hRest, hStep, UInt32.add_assoc]

/-- The numbers that the pops of an episode have taken up are those from its
first on. -/
theorem Episode.nextSeq {impl : PlaybackImpl} {frameCount : Nat} {arrivals : List (List Arrival)}
    {events : List PlaybackEvent} {first : UInt32} (hEpisode : impl.Episode frameCount arrivals events first)
    {before after : List PlaybackEvent} (hEvents : events = before ++ after) :
    let r := impl.run (.callback frameCount arrivals :: before)
    r.1.buffer.nextSeq = first + UInt32.ofNat (consumed r.2) := by
  intro r
  let opened := (impl.dataCallback frameCount arrivals).1
  let w : Writing := { impl := impl, remaining := impl.request frameCount }
  -- nothing is dropped in the part of the run up to here
  obtain ⟨hReceived, hOpening⟩ :=
    @Writing.fill_tookUp_first first w arrivals hEpisode.reaches hEpisode.starts
  change (impl.receive (arrivals.headD [])).drops ≤ opened.drops at hReceived
  have hUpTo := opened.drops_run_le before
  have hBeyond := (opened.run before).1.drops_run_le after
  have hAll := hEpisode.undropped
  rw [hEvents, run_append] at hAll
  change ((opened.run before).1.run after).1.drops = _ at hAll
  obtain ⟨n, hPops, hSeq⟩ := hOpening (by change opened.drops = (impl.receive _).drops; omega)
  have hLasts : ∀ earlier later, before = earlier ++ later → (opened.run earlier).1.buffer.started = true := by
    intro earlier later hEq
    exact hEpisode.lasts earlier (later ++ after) (by rw [hEvents, hEq, List.append_assoc])
  have hRest := nextSeq_run hLasts (by omega)
  have hConsumed : (impl.dataCallback frameCount arrivals).2.pops.length = n := hPops.trans (Nat.zero_add n)
  have hOpened : opened.buffer.nextSeq = first + UInt32.ofNat n := hSeq
  simp only [r, run_callback, consumed_cons, hConsumed, UInt32.ofNat_add]
  rw [hRest, hOpened, UInt32.add_assoc]

end PlaybackImpl

open PlaybackImpl

/-- Over an episode the account of bytes and packets holds for as long as
every callback that comes to a missing packet has the bytes of one packet left
to write. -/
theorem pace_iff {size : Nat} (targetDepth maxDepth : Nat) (format : AudioFormat) {prior events : List PlaybackEvent}
    {frameCount : Nat} {arrivals : List (List Arrival)} {first : UInt32}
    (hPackets : ∀ e ∈ prior ++ .callback frameCount arrivals :: events, ∀ p ∈ e.packets, p.2.length = size) :
    let impl := ((PlaybackImpl.start (.new targetDepth maxDepth) format).run prior).1
    let episode := .callback frameCount arrivals :: events
    impl.Episode frameCount arrivals events first →
      (∀ before after, events = before ++ after →
        (impl.run (.callback frameCount arrivals :: before)).1.buffer.nextSeq =
          first + UInt32.ofNat (consumed (impl.run (.callback frameCount arrivals :: before)).2)) ∧
      ((∀ before after, episode = before ++ after → impl.KeepsPace size before) ↔
        ∀ before count groups after, episode = before ++ .callback count groups :: after →
          (impl.run before).1.OnPace size count groups) := by
  intro impl episode hEpisode
  refine ⟨fun before after hEvents => hEpisode.nextSeq hEvents, ?_⟩
  have hImpl : impl.buffer.Sized size :=
    sized_run (JitterBuffer.sized_new size targetDepth maxDepth) fun e hMem => hPackets e (List.mem_append_left _ hMem)
  have hRun {before after : List PlaybackEvent} (hEq : episode = before ++ after) :
      (impl.run before).1.buffer.Sized size := by
    apply sized_run hImpl
    intro e hMem
    have hIn : e ∈ episode := hEq.symm ▸ List.mem_append_left _ hMem
    exact hPackets e (List.mem_append_right _ hIn)
  have hGroups {before after : List PlaybackEvent} {count : Nat} {groups : List (List Arrival)}
      (hEq : episode = before ++ .callback count groups :: after) : ∀ p ∈ groups.flatten, p.2.length = size := by
    have hIn : .callback count groups ∈ episode := hEq.symm ▸ List.mem_append_right _ List.mem_cons_self
    exact hPackets _ (List.mem_append_right _ hIn)
  constructor
  · intro hPace before count groups after hEq
    have hCalled : episode = (before ++ [.callback count groups]) ++ after := by
      rw [hEq, List.append_assoc]
      rfl
    exact (keepsPace_callback count (hRun hEq) (hGroups hEq) (hPace before _ hEq)).mp (hPace _ after hCalled)
  · intro hOnPace before
    induction before using List.reverseRecOn with
    | nil =>
        intro _ _
        exact (keepsPace_iff size impl []).mpr (Nat.zero_add _)
    | append_singleton before event ih =>
        intro after hEq
        rw [List.append_assoc] at hEq
        have hBefore := ih _ hEq
        cases event with
        | push packet => exact (keepsPace_push size impl before packet).mpr hBefore
        | callback count groups =>
            exact (keepsPace_callback count (hRun hEq) (hGroups hEq) hBefore).mpr (hOnPace before count groups after hEq)

/-- Packets of four bytes for a device that plays two at a time, of which
number 3 is missing. -/
def gap : List PlaybackEvent :=
  [0, 1, 2, 4, 5, 6, 7, 8].map fun seq => .push (seq, [1, 1, 1, 1])

/-- A callback that comes to the gap with two bytes left is given two bytes of
silence. -/
theorem gap_costs_half :
    let impl := ((PlaybackImpl.start (.new 8 200) { bitDepth := 8 }).run gap).1
    (∀ e ∈ gap ++ [.callback 7 []], ∀ p ∈ e.packets, p.2.length = 4) ∧ impl.Episode 7 [] [] 0 ∧
      ¬ impl.KeepsPace 4 [.callback 7 []] := by
  refine ⟨by decide, ⟨by decide +kernel, by decide +kernel, by decide +kernel, ?_, by decide +kernel⟩, by decide +kernel⟩
  intro before after hEq
  obtain ⟨rfl, rfl⟩ := List.append_eq_nil_iff.mp hEq.symm
  decide +kernel

/-- With the four bytes of a packet left it is on pace. -/
theorem pace_iff_gap :
    let impl := ((PlaybackImpl.start (.new 8 200) { bitDepth := 8 }).run gap).1
    ∀ before after, [.callback 8 []] = before ++ after → impl.KeepsPace 4 before := by
  intro impl
  have hEpisode : impl.Episode 8 [] [] 0 := by
    refine ⟨by decide +kernel, by decide +kernel, by decide +kernel, ?_, by decide +kernel⟩
    intro before after hEq
    obtain ⟨rfl, rfl⟩ := List.append_eq_nil_iff.mp hEq.symm
    decide +kernel
  apply (pace_iff 8 200 { bitDepth := 8 } (by decide) hEpisode).2.mpr
  intro before count groups after hEq
  cases before with
  | nil =>
      cases hEq
      exact .inr (by decide +kernel)
  | cons event before =>
      have hLength := congrArg List.length hEq
      simp only [List.length_append, List.length_cons, List.length_nil] at hLength
      omega

end NoCapKVM.Audio
