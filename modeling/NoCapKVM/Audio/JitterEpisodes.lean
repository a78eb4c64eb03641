import NoCapKVM.Audio.PlaybackPace

/-! The frames that playback gives back, episode by episode, against the stream that the
pushes come from. -/
namespace NoCapKVM.Audio

/-- The frames played so far, by episode. -/
structure Episodes (φ : Type) where
  ended : List (List φ) := []
  current : List φ := []

namespace Episodes

variable {φ : Type}

def all (e : Episodes φ) : List (List φ) := e.ended ++ [e.current]

/-- What a call on the buffer adds. An episode ends with the pop after which
playback is not started. -/
def note (e : Episodes φ) (b : JitterBuffer φ) : Call φ → Episodes φ
  | .push _ _ => e
  | .pop =>
      let played := e.current ++ b.pop.1.toList
      if b.pop.2.started then { e with current := played } else { ended := e.ended ++ [played] }

/-- The episodes after calls on the buffer, if `e` were those before. -/
def after (e : Episodes φ) : JitterBuffer φ → List (Call φ) → Episodes φ
  | _, [] => e
  | b, call :: calls => (e.note b call).after (b.step call) calls

end Episodes

namespace JitterBuffer

variable {φ : Type}

/-- The frames that the pops of the calls return. -/
def returned : JitterBuffer φ → List (Call φ) → List φ
  | _, [] => []
  | b, .push seq frame :: calls => (b.step (.push seq frame)).returned calls
  | b, .pop :: calls => b.pop.1.toList ++ b.pop.2.returned calls

/-- What two parts of a sequence of calls return, the whole returns
in this order. -/
theorem returned_append (b : JitterBuffer φ) (calls more : List (Call φ)) :
    b.returned (calls ++ more) = b.returned calls ++ (b.run calls).returned more := by
  induction calls generalizing b with
  | nil => rfl
  | cons call calls ih =>
      cases call with
      | push seq frame => exact ih (b.step (.push seq frame))
      | pop =>
          rw [List.cons_append, returned, returned, List.append_assoc, ih b.pop.2]
          rfl

end JitterBuffer

namespace Episodes

variable {φ : Type}

/-- Nothing that was played is left out of the episodes. -/
theorem after_flatten (e : Episodes φ) (b : JitterBuffer φ) (calls : List (Call φ)) :
    (e.after b calls).all.flatten = e.all.flatten ++ b.returned calls := by
  induction calls generalizing e b with
  | nil => exact (List.append_nil _).symm
  | cons call calls ih =>
      rw [after, ih]
      cases call with
      | push seq frame => rfl
      | pop =>
          rw [JitterBuffer.returned, ← List.append_assoc]
          congr 1
          unfold note
          dsimp only
          split <;> simp [all]

/-- What is buffered under a number is the frame at that place of the
stream, and the current episode comes from the part of the stream that
playback has passed. -/
structure Follows (sent : List φ) (b : JitterBuffer φ) (e : Episodes φ) : Prop where
  buffered : ∀ p ∈ b.buffer.entries, sent[p.1.toNat]? = some p.2
  ended : ∀ episode ∈ e.ended, episode.Sublist sent
  current : e.current.Sublist (sent.take b.nextSeq.toNat)
  stopped : b.started = false → e.current = []
  near : b.started = true → b.nextSeq.toNat ≤ sent.length + b.consecutiveMisses

/-- Each episode is a part of the stream, in the order of the stream. -/
theorem Follows.all {sent : List φ} {b : JitterBuffer φ} {e : Episodes φ} (h : Follows sent b e) :
    ∀ episode ∈ e.all, episode.Sublist sent := by
  intro episode hMem
  rcases List.mem_append.mp hMem with hEnded | hCurrent
  · exact h.ended episode hEnded
  · obtain rfl := List.mem_singleton.mp hCurrent
    exact h.current.trans (List.take_sublist _ _)

/-- A new buffer has played nothing and holds nothing. -/
theorem follows_new (targetDepth maxDepth : Nat) : Follows ([] : List φ) (.new targetDepth maxDepth) {} where
  buffered := nofun
  ended := nofun
  current := List.nil_sublist _
  stopped _ := rfl
  near := nofun

/-- The stream may grow. -/
theorem Follows.append {sent : List φ} {b : JitterBuffer φ} {e : Episodes φ} (h : Follows sent b e) (more : List φ) :
    Follows (sent ++ more) b e where
  buffered p hMem := by
    have hPlace := h.buffered p hMem
    obtain ⟨hLess, -⟩ := List.getElem?_eq_some_iff.mp hPlace
    rw [List.getElem?_append_left hLess]
    exact hPlace
  ended episode hMem := (h.ended episode hMem).trans (List.sublist_append_left _ _)
  current := by
    rw [List.take_append]
    exact h.current.trans (List.sublist_append_left _ _)
  stopped := h.stopped
  near hStarted := by
    have hNear := h.near hStarted
    rw [List.length_append]
    omega

variable {sent : List φ} {b : JitterBuffer φ} {e : Episodes φ}

theorem take_sublist_take {sent : List φ} {m n : Nat} (hLe : m ≤ n) : (sent.take m).Sublist (sent.take n) := by
  rw [← Nat.min_eq_left hLe, ← List.take_take]
  exact List.take_sublist _ _

/-- A frame pushed under the number of its place. -/
theorem Follows.push (h : Follows sent b e) (hValid : b.Valid) {seq : UInt32} {frame : φ}
    (hPlace : sent[seq.toNat]? = some frame) : Follows sent (b.pushLocked seq frame).1 e := by
  have hInserted : ∀ p ∈ (b.buffer.insert seq frame).entries, sent[p.1.toNat]? = some p.2 := by
    intro p hMem
    rcases OrderedMap.mem_insert.mp hMem with rfl | ⟨hOld, -⟩
    · exact hPlace
    · exact h.buffered p hOld
  have hPushed := JitterBuffer.pushLocked_pushed hValid.depth_le seq frame
  generalize b.pushLocked seq frame = result at hPushed ⊢
  cases hPushed with
  | late => exact h
  | fits => exact { h with buffered := hInserted }
  | dropped oldest atCap episodes hLate hSize hFirst =>
      obtain ⟨later, -, hLess⟩ := JitterBuffer.oldest_lt hValid hSize hFirst
      have hEntries := OrderedMap.entries_of_first? hFirst
      have hOldest := hInserted oldest (hEntries ▸ List.mem_cons_self)
      obtain ⟨hInside, -⟩ := List.getElem?_eq_some_iff.mp hOldest
      have hKept : ∀ p ∈ (b.buffer.insert seq frame).eraseFirst.entries, sent[p.1.toNat]? = some p.2 :=
        fun p hMem => hInserted p (List.mem_of_mem_tail hMem)
      dsimp only
      split
      case isTrue hMoved =>
        have hBehind : b.nextSeq.toNat ≤ oldest.1.toNat := UInt32.le_iff_toNat_le.mp hMoved.2
        have hNext : (oldest.1 + 1).toNat = oldest.1.toNat + 1 := JitterBuffer.toNat_succ_of_lt hLess
        refine { h with buffered := hKept, current := ?_, near := fun _ => ?_ }
        · refine h.current.trans (take_sublist_take ?_)
          rw [hNext]
          omega
        · rw [hNext]
          exact Nat.le_trans hInside (Nat.le_add_right _ _)
      case isFalse => exact { h with buffered := hKept }

/-- Playback that starts does so at a place of the stream. -/
theorem Follows.start (h : Follows sent b e) (hValid : b.Valid) {s : JitterBuffer φ}
    (hStart : b.startPlayback = some s) : Follows sent s e ∧ s.started = true := by
  rcases JitterBuffer.startPlayback_eq_some hStart with ⟨hStarted, rfl⟩ | ⟨hStopped, hFilled, rfl⟩
  · exact ⟨h, hStarted⟩
  · have hNil := h.stopped hStopped
    have hSome := OrderedMap.first?_isSome (Nat.lt_of_lt_of_le hValid.target_pos hFilled)
    obtain ⟨first, hFirst⟩ := Option.isSome_iff_exists.mp hSome
    have hPlace := h.buffered first (OrderedMap.entries_of_first? hFirst ▸ List.mem_cons_self)
    obtain ⟨hInside, -⟩ := List.getElem?_eq_some_iff.mp hPlace
    refine ⟨⟨h.buffered, h.ended, hNil ▸ List.nil_sublist _, nofun, fun _ => ?_⟩, rfl⟩
    rw [hFirst]
    exact Nat.le_of_lt hInside

/-- The next number is one that 32 bits can hold. -/
theorem Follows.nextSeq_succ (h : Follows sent b e) (hStarted : b.started = true)
    (hMisses : b.consecutiveMisses < kMaxConsecutiveMisses)
    (hShort : sent.length + kMaxConsecutiveMisses < 2 ^ 32) : (b.nextSeq + 1).toNat = b.nextSeq.toNat + 1 := by
  have hNear := h.near hStarted
  rw [UInt32.toNat_add, UInt32.toNat_one, Nat.mod_eq_of_lt (by omega)]

/-- A pop plays the frame at its place of the stream, or ends the episode. -/
theorem Follows.pop (h : Follows sent b e) (hValid : b.Valid)
    (hShort : sent.length + kMaxConsecutiveMisses < 2 ^ 32) : Follows sent b.pop.2 (e.note b .pop) := by
  have hPopped := JitterBuffer.pop_popped b
  unfold note
  generalize b.pop = result at hPopped ⊢
  cases hPopped with
  | filling hStart =>
      have hStopped : b.started = false := by
        by_contra hStarted
        rw [JitterBuffer.startPlayback, if_pos (Bool.not_eq_false _ ▸ hStarted)] at hStart
        cases hStart
      have hNil := h.stopped hStopped
      simp only [hStopped, hNil, Option.toList_none, List.append_nil, Bool.false_eq_true, if_false]
      refine ⟨h.buffered, ?_, List.nil_sublist _, fun _ => rfl, h.near⟩
      intro episode hMem
      rcases List.mem_append.mp hMem with hOld | hNew
      · exact h.ended episode hOld
      · obtain rfl := List.mem_singleton.mp hNew
        exact List.nil_sublist _
  | missed s hStart hFind hMisses =>
      obtain ⟨hS, hStarted⟩ := h.start hValid hStart
      have hNext := hS.nextSeq_succ hStarted (Nat.lt_of_succ_lt hMisses) hShort
      have hNear := hS.near hStarted
      simp only [hStarted, Option.toList_none, List.append_nil, if_true]
      refine ⟨hS.buffered, hS.ended, hS.current.trans (take_sublist_take ?_), fun hNot => absurd hNot Bool.false_ne_true.symm,
        fun _ => ?_⟩
      · rw [hNext]
        exact Nat.le_succ _
      · rw [hNext]
        dsimp only
        omega
  | resynced s atCap hStart hFind hMisses =>
      obtain ⟨hS, -⟩ := h.start hValid hStart
      simp only [Option.toList_none, List.append_nil, Bool.false_eq_true, if_false]
      refine ⟨fun p hMem => absurd hMem List.not_mem_nil, ?_, List.nil_sublist _, fun _ => rfl,
        fun hNot => absurd hNot Bool.false_ne_true⟩
      intro episode hMem
      exact hS.all episode hMem
  | played s frame atCap hStart hFind =>
      obtain ⟨hS, hStarted⟩ := h.start hValid hStart
      have hMisses := (hValid.startPlayback hStart).1.misses_lt
      have hNext := hS.nextSeq_succ hStarted hMisses hShort
      have hPlace := hS.buffered _ (OrderedMap.find?_eq_some_iff.mp hFind)
      obtain ⟨hInside, -⟩ := List.getElem?_eq_some_iff.mp hPlace
      simp only [hStarted, Option.toList_some, if_true]
      refine ⟨?_, hS.ended, ?_, fun hNot => absurd hNot Bool.false_ne_true.symm, fun _ => ?_⟩
      · exact fun p hMem => hS.buffered p (OrderedMap.mem_erase.mp hMem).1
      · rw [hNext, List.take_add_one, hPlace]
        exact hS.current.append (List.Sublist.refl _)
      · rw [hNext]
        exact hInside

/-- The calls push frames of the stream under the numbers of their places. -/
def FromStream (sent : List φ) (calls : List (Call φ)) : Prop :=
  ∀ seq frame, .push seq frame ∈ calls → sent[seq.toNat]? = some frame

/-- So after any calls that push frames under the numbers of their places,
every episode follows the stream. -/
theorem Follows.after (h : Follows sent b e) (hValid : b.Valid) {calls : List (Call φ)} (hCalls : FromStream sent calls)
    (hShort : sent.length + kMaxConsecutiveMisses < 2 ^ 32) : Follows sent (b.run calls) (e.after b calls) := by
  induction calls generalizing b e with
  | nil => exact h
  | cons call calls ih =>
      have hRest : FromStream sent calls := fun seq frame hMem => hCalls seq frame (List.mem_cons_of_mem call hMem)
      refine ih ?_ (hValid.step call) hRest
      cases call with
      | push seq frame => exact h.push hValid (hCalls seq frame List.mem_cons_self)
      | pop => exact h.pop hValid hShort

end Episodes

/-- Pops, each after the packets that have come in before it. -/
def popCalls : Nat → List (List Arrival) → List (Call (List UInt8))
  | 0, _ => []
  | n + 1, arrivals => (arrivals.headD []).map (fun p => .push p.1 p.2) ++ .pop :: popCalls n arrivals.tail

/-- The packets that arrive are pushed one after the other. -/
theorem JitterBuffer.run_pushes (b : JitterBuffer (List UInt8)) (packets : List Arrival) :
    b.run (packets.map fun p => .push p.1 p.2) = b.receive packets := by
  induction packets generalizing b with
  | nil => rfl
  | cons packet packets ih => exact ih (b.pushLocked packet.1 packet.2).1

theorem JitterBuffer.returned_pushes (b : JitterBuffer (List UInt8)) (packets : List Arrival) :
    b.returned (packets.map fun p => .push p.1 p.2) = [] := by
  induction packets generalizing b with
  | nil => rfl
  | cons packet packets ih => exact ih (b.pushLocked packet.1 packet.2).1

theorem JitterBuffer.run_popCalls_succ (b : JitterBuffer (List UInt8)) (n : Nat) (arrivals : List (List Arrival)) :
    b.run (popCalls (n + 1) arrivals) = (b.receive (arrivals.headD [])).pop.2.run (popCalls n arrivals.tail) := by
  rw [popCalls, run_append, run_pushes]
  rfl

theorem JitterBuffer.returned_popCalls_succ (b : JitterBuffer (List UInt8)) (n : Nat) (arrivals : List (List Arrival)) :
    b.returned (popCalls (n + 1) arrivals) = (b.receive (arrivals.headD [])).pop.1.toList ++
      (b.receive (arrivals.headD [])).pop.2.returned (popCalls n arrivals.tail) := by
  rw [popCalls, returned_append, returned_pushes, run_pushes]
  rfl

/-- The loop of a callback leaves the buffer as its pops do. -/
theorem Writing.fill_calls (w : Writing) (arrivals : List (List Arrival)) :
    ∃ popped, (w.fill arrivals).pops = w.pops ++ popped ∧
      (w.fill arrivals).impl.buffer = w.impl.buffer.run (popCalls popped.length arrivals) ∧
      popped.reduceOption = w.impl.buffer.returned (popCalls popped.length arrivals) := by
  induction w, arrivals using fill_induction with
  | met w arrivals hMet => exact ⟨[], (List.append_nil _).symm, rfl, rfl⟩
  | copied w arrivals hRemaining hCarry ih => exact ih
  | popped w arrivals hRemaining hCarry hFetched ih =>
      obtain ⟨popped, hPops, hBuffer, hFrames⟩ := ih
      have hFirst : (w.fetch (arrivals.headD [])).2.copy.pops =
          w.pops ++ [(w.impl.receive (arrivals.headD [])).buffer.pop.1] := w.fetch_pops (arrivals.headD [])
      have hNext : (w.fetch (arrivals.headD [])).2.copy.impl.buffer =
          (w.impl.receive (arrivals.headD [])).buffer.pop.2 := w.fetch_buffer (arrivals.headD [])
      rw [hFirst, List.append_assoc] at hPops
      rw [hNext, PlaybackImpl.receive_buffer] at hBuffer hFrames
      rw [PlaybackImpl.receive_buffer] at hPops
      refine ⟨_, hPops, ?_, ?_⟩
      · rw [List.singleton_append, List.length_cons, JitterBuffer.run_popCalls_succ]
        exact hBuffer
      · rw [List.singleton_append, List.length_cons, JitterBuffer.returned_popCalls_succ, ← hFrames]
        cases (w.impl.buffer.receive (arrivals.headD [])).pop.1 <;> rfl
  | dry w arrivals hRemaining hCarry hDry =>
      have hNone := none_of_fetch hDry
      rw [PlaybackImpl.receive_buffer] at hNone
      refine ⟨[none], ?_, ?_, ?_⟩
      · rw [fetch_pops, PlaybackImpl.receive_buffer, hNone]
      · rw [fetch_buffer, PlaybackImpl.receive_buffer, List.length_singleton, JitterBuffer.run_popCalls_succ]
        rfl
      · rw [List.length_singleton, JitterBuffer.returned_popCalls_succ, hNone]
        rfl

namespace PlaybackImpl

/-- The calls on the buffer of one event. -/
def calls (impl : PlaybackImpl) : PlaybackEvent → List (Call (List UInt8))
  | .push packet => [.push packet.1 packet.2]
  | .callback frameCount arrivals => popCalls (impl.dataCallback frameCount arrivals).2.pops.length arrivals

/-- What an event does to the buffer are its calls, and what it plays are the
frames that they return. -/
theorem step_calls (impl : PlaybackImpl) (event : PlaybackEvent) :
    (impl.step event).1.buffer = impl.buffer.run (impl.calls event) ∧
      (impl.step event).2.flatMap Played.frames = impl.buffer.returned (impl.calls event) := by
  cases event with
  | push packet => exact ⟨rfl, rfl⟩
  | callback frameCount arrivals =>
      obtain ⟨popped, hPops, hBuffer, hFrames⟩ :=
        Writing.fill_calls { impl := impl, remaining := impl.request frameCount } arrivals
      have hPlayed : (impl.dataCallback frameCount arrivals).2.pops = popped := hPops
      refine ⟨?_, ?_⟩
      · rw [calls, hPlayed]
        exact hBuffer
      · rw [calls, hPlayed, ← hFrames]
        show (impl.dataCallback frameCount arrivals).2.frames ++ [] = _
        rw [List.append_nil, Played.frames, hPlayed]

end PlaybackImpl

end NoCapKVM.Audio
