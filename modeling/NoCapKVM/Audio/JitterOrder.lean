import Mathlib.Data.List.Induction
import NoCapKVM.Audio.JitterBuffer
import NoCapKVM.EventLog.Since

/-! The representation of a jitter buffer in every run, and the order in which
it gives its frames back. -/
namespace NoCapKVM.Audio.JitterBuffer

open EventLog

variable {φ : Type}

theorem toNat_succ_of_lt {a b : UInt32} (hLess : a < b) : (a + 1).toNat = a.toNat + 1 := by
  have hBelow : a.toNat < b.toNat := UInt32.lt_iff_toNat_lt.mp hLess
  have hSize : b.toNat < 2 ^ 32 := b.toNat_lt
  rw [UInt32.toNat_add, UInt32.toNat_one, Nat.mod_eq_of_lt (by omega)]

/-- The frame dropped over the ceiling is not the last one, so that the number
after it exists. -/
theorem oldest_lt {b : JitterBuffer φ} (hValid : b.Valid) {grown : OrderedMap UInt32 φ} {oldest : UInt32 × φ}
    (hSize : grown.size = b.maxDepth + 1) (hFirst : grown.first? = some oldest) :
    ∃ e ∈ grown.entries, oldest.1 < e.1 := by
  have hEntries := OrderedMap.entries_of_first? hFirst
  have hRest : 0 < grown.eraseFirst.entries.length := by
    have hTail := OrderedMap.size_eraseFirst grown
    have hTarget := hValid.target_pos
    have hMax := hValid.target_le
    simp only [OrderedMap.size] at hTail hSize
    omega
  obtain ⟨e, hMem⟩ := List.exists_mem_of_length_pos hRest
  have hOrdered := grown.ordered
  rw [hEntries] at hOrdered
  refine ⟨e, ?_, List.rel_of_pairwise_cons hOrdered hMem⟩
  rw [hEntries]
  exact List.mem_cons_of_mem _ hMem

/-- A push that is not late leaves the frames with the largest numbers, as
many as the ceiling allows. -/
theorem pushLocked_kept {b : JitterBuffer φ} (hValid : b.Valid) {seq : UInt32} (frame : φ) (hLate : ¬ b.Late seq) :
    (b.pushLocked seq frame).1.buffer.entries =
      (b.buffer.insert seq frame).entries.drop ((b.buffer.insert seq frame).size - b.maxDepth) := by
  have hPushed := pushLocked_pushed hValid.depth_le seq frame
  generalize b.pushLocked seq frame = result at hPushed ⊢
  cases hPushed with
  | late hIs => exact absurd hIs hLate
  | fits atCap episodes _ hSize =>
      rw [Nat.sub_eq_zero_of_le hSize]
      rfl
  | dropped oldest atCap episodes _ hSize hFirst =>
      rw [hSize, Nat.add_sub_cancel_left, List.drop_one]
      rfl

/-- Where playback is on, the next number moves past the frames that the
ceiling has taken. -/
theorem pushLocked_nextSeq {b : JitterBuffer φ} (hValid : b.Valid) {seq : UInt32} (frame : φ)
    (hLate : ¬ b.Late seq) (hStarted : b.started = true) :
    (b.pushLocked seq frame).1.nextSeq.toNat =
      ((b.buffer.insert seq frame).entries.take ((b.buffer.insert seq frame).size - b.maxDepth)).foldl
        (fun next e => max next (e.1.toNat + 1)) b.nextSeq.toNat := by
  have hPushed := pushLocked_pushed hValid.depth_le seq frame
  generalize b.pushLocked seq frame = result at hPushed ⊢
  cases hPushed with
  | late hIs => exact absurd hIs hLate
  | fits atCap episodes _ hSize =>
      rw [Nat.sub_eq_zero_of_le hSize]
      rfl
  | dropped oldest atCap episodes _ hSize hFirst =>
      have hEntries := OrderedMap.entries_of_first? hFirst
      have hOldest : b.nextSeq ≤ oldest.1 := by
        have hMem : oldest ∈ (b.buffer.insert seq frame).entries := hEntries ▸ List.mem_cons_self
        rcases OrderedMap.mem_insert.mp hMem with rfl | ⟨hOld, -⟩
        · exact not_lt.mp fun hLess => hLate ⟨hStarted, hLess⟩
        · exact hValid.ahead hStarted oldest hOld
      obtain ⟨e, -, hLess⟩ := oldest_lt hValid hSize hFirst
      have hNat : b.nextSeq.toNat ≤ oldest.1.toNat := UInt32.le_iff_toNat_le.mp hOldest
      rw [hSize, Nat.add_sub_cancel_left, hEntries]
      simp only [if_pos (And.intro hStarted hOldest), toNat_succ_of_lt hLess, List.take_succ_cons, List.take_zero,
        List.foldl_cons, List.foldl_nil]
      omega

/-- In every reachable state the buffer is within its ceiling, nothing in it
is behind playback, the misses are below their limit and playback starts from
a key; and a push that is not late keeps the largest keys, with playback moved
past the ones it drops. -/
theorem representation {targetDepth : Nat} (maxDepth : Nat) (hTarget : 1 ≤ targetDepth) (calls : List (Call φ)) :
    let b := (new targetDepth maxDepth).run calls
    let cap := max targetDepth maxDepth
    b.depth ≤ cap ∧
      (b.started = true → ∀ e ∈ b.buffer.entries, b.nextSeq ≤ e.1) ∧
      b.consecutiveMisses < kMaxConsecutiveMisses ∧
      (b.started = false → ¬ b.depth < b.targetDepth → b.buffer.first?.isSome) ∧
      ∀ seq frame, ¬ b.Late seq →
        let grown := b.buffer.insert seq frame
        let after := (b.pushLocked seq frame).1
        after.buffer.entries = grown.entries.drop (grown.size - cap) ∧
          (b.started = true →
            after.nextSeq.toNat =
              (grown.entries.take (grown.size - cap)).foldl (fun next e => max next (e.1.toNat + 1))
                b.nextSeq.toNat) := by
  intro b cap
  have hValid : b.Valid := (valid_new hTarget).run calls
  have hCap : b.maxDepth = cap := by
    rw [(valid_new hTarget).maxDepth_run, maxDepth_new]
  have hDepth := hValid.depth_le
  rw [hCap] at hDepth
  refine ⟨hDepth, hValid.ahead, hValid.misses_lt, ?_, ?_⟩
  · intro _ hFilled
    have hPos := hValid.target_pos
    apply OrderedMap.first?_isSome
    simp only [depth] at hFilled
    omega
  · intro seq frame hLate grown after
    have hKept := pushLocked_kept hValid frame hLate
    have hNext := pushLocked_nextSeq hValid frame hLate
    rw [hCap] at hKept hNext
    exact ⟨hKept, hNext⟩

theorem representation_started :
    let b := (new 1 2 : JitterBuffer Nat).run [.push 4 40, .pop, .push 5 50, .push 6 60]
    1 ≤ 1 ∧ b.depth ≤ max 1 2 ∧ (b.pushLocked 7 70).1.nextSeq.toNat = 6 := by
  intro b
  have hRepresented := representation 2 (Nat.le_refl 1) [.push 4 40, .pop, .push 5 50, .push 6 60]
  have hPushed := hRepresented.2.2.2.2 7 70 (by decide +kernel)
  exact ⟨Nat.le_refl 1, hRepresented.1, (hPushed.2 (by decide +kernel)).trans (by decide +kernel)⟩

/-- The frame comes with a push of the sequence number that was not late, and
every push of it after that one was. -/
def LastTaken (b : JitterBuffer φ) (calls : List (Call φ)) (seq : UInt32) (frame : φ) : Prop :=
  Since (fun before call => call = .push seq frame ∧ ¬ (b.run before).Late seq)
    (fun before call => (∃ later, call = .push seq later) ∧ ¬ (b.run before).Late seq) calls

/-- A push that is not late is the last one of its number that was taken. -/
theorem lastTaken_concat {b : JitterBuffer φ} {calls : List (Call φ)} {seq : UInt32} (frame : φ)
    (hLate : ¬ (b.run calls).Late seq) : LastTaken b (calls ++ [.push seq frame]) seq frame :=
  (since_concat calls _).mpr (.inl ⟨rfl, hLate⟩)

/-- A further call leaves it the last one, unless it is a push
that is taken. -/
theorem LastTaken.concat {b : JitterBuffer φ} {calls : List (Call φ)} {seq : UInt32} {frame : φ}
    (hLast : LastTaken b calls seq frame) {call : Call φ}
    (hCall : ∀ later, call = .push seq later → (b.run calls).Late seq) : LastTaken b (calls ++ [call]) seq frame := by
  apply (since_concat calls call).mpr
  refine .inr ⟨hLast, ?_⟩
  rintro ⟨⟨later, hPush⟩, hTaken⟩
  exact hTaken (hCall later hPush)

/-- Starting playback leaves the frames where they are. -/
theorem entries_of_startPlayback {b s : JitterBuffer φ} (hStart : b.startPlayback = some s) : s.buffer = b.buffer := by
  rcases startPlayback_eq_some hStart with ⟨-, rfl⟩ | ⟨-, -, rfl⟩ <;> rfl

/-- A pop adds no frame. -/
theorem mem_pop {b : JitterBuffer φ} {e : UInt32 × φ} (hMem : e ∈ b.pop.2.buffer.entries) : e ∈ b.buffer.entries := by
  have hPopped := pop_popped b
  generalize b.pop = result at hPopped hMem
  cases hPopped with
  | filling => exact hMem
  | missed s hStart =>
      rw [← entries_of_startPlayback hStart]
      exact hMem
  | resynced => exact absurd hMem List.not_mem_nil
  | played s frame atCap hStart =>
      rw [← entries_of_startPlayback hStart]
      exact (OrderedMap.mem_erase.mp hMem).1

/-- A push adds at most its own frame, and takes the place of one with the
same number. -/
theorem mem_pushLocked {b : JitterBuffer φ} (hValid : b.Valid) {seq : UInt32} {frame : φ} {e : UInt32 × φ}
    (hMem : e ∈ (b.pushLocked seq frame).1.buffer.entries) :
    ¬ b.Late seq ∧ e = (seq, frame) ∨ e ∈ b.buffer.entries ∧ (b.Late seq ∨ e.1 ≠ seq) := by
  by_cases hLate : b.Late seq
  · rw [pushLocked, if_pos hLate] at hMem
    exact .inr ⟨hMem, .inl hLate⟩
  · rw [pushLocked_kept hValid frame hLate] at hMem
    rcases OrderedMap.mem_insert.mp (List.mem_of_mem_drop hMem) with hNew | ⟨hOld, hApart⟩
    · exact .inl ⟨hLate, hNew⟩
    · exact .inr ⟨hOld, .inr hApart⟩

/-- What waits under a number is the frame of the last push of it that
was not late. -/
theorem buffered_lastTaken {b : JitterBuffer φ} (hValid : b.Valid) (hEmpty : b.buffer.entries = [])
    (calls : List (Call φ)) : ∀ e ∈ (b.run calls).buffer.entries, LastTaken b calls e.1 e.2 := by
  induction calls using List.reverseRecOn with
  | nil =>
      intro e hMem
      rw [run_nil, hEmpty] at hMem
      exact absurd hMem List.not_mem_nil
  | append_singleton calls call ih =>
      intro e hMem
      rw [run_append, run_cons, run_nil] at hMem
      cases call with
      | pop =>
          apply (ih e (mem_pop hMem)).concat
          intro later hEq
          cases hEq
      | push seq frame =>
          rcases mem_pushLocked (hValid.run calls) hMem with ⟨hLate, rfl⟩ | ⟨hOld, hKept⟩
          · exact lastTaken_concat frame hLate
          · apply (ih e hOld).concat
            intro later hEq
            have hSeq : seq = e.1 := (Call.push.inj hEq).1
            rcases hKept with hLate | hApart
            · exact hSeq ▸ hLate
            · exact absurd hSeq.symm hApart

/-- The sequence number that the next pop looks for, once
playback can start. -/
def upcoming (b : JitterBuffer φ) : Option UInt32 :=
  b.startPlayback.map nextSeq

/-- No pop of the calls moves `next_seq_` past its last value. -/
def NoWrap (b : JitterBuffer φ) (calls : List (Call φ)) : Prop :=
  ∀ before after, calls = before ++ .pop :: after →
    ∀ seq ∈ (b.run before).upcoming, seq.toNat + 1 < 2 ^ 32

/-- A frame that is popped has waited under the number that comes next. -/
theorem pop_eq_some {b : JitterBuffer φ} {frame : φ} (hPop : b.pop.1 = some frame) :
    ∃ s, b.startPlayback = some s ∧ (s.nextSeq, frame) ∈ b.buffer.entries ∧
      b.pop.2.started = s.started ∧ b.pop.2.nextSeq = s.nextSeq + 1 := by
  have hPopped := pop_popped b
  generalize b.pop = result at hPopped hPop ⊢
  cases hPopped with
  | filling => cases hPop
  | missed => cases hPop
  | resynced => cases hPop
  | played s found atCap hStart hFind =>
      cases hPop
      refine ⟨s, hStart, ?_, rfl, rfl⟩
      rw [← entries_of_startPlayback hStart]
      exact OrderedMap.find?_eq_some_iff.mp hFind

/-- Playback only moves forward while it lasts. -/
theorem nextSeq_step {b : JitterBuffer φ} (hValid : b.Valid) (hStarted : b.started = true) (call : Call φ)
    (hWrap : call = .pop → b.nextSeq.toNat + 1 < 2 ^ 32) : b.nextSeq ≤ (b.step call).nextSeq := by
  cases call with
  | push seq frame =>
      have hPushed := pushLocked_pushed hValid.depth_le seq frame
      change b.nextSeq ≤ (b.pushLocked seq frame).1.nextSeq
      generalize b.pushLocked seq frame = result at hPushed ⊢
      cases hPushed with
      | late => exact le_refl _
      | fits => exact le_refl _
      | dropped oldest atCap episodes hLate hSize hFirst =>
          obtain ⟨e, -, hLess⟩ := oldest_lt hValid hSize hFirst
          change b.nextSeq ≤ if _ then _ else _
          split
          case isTrue hMoved =>
            have hNat : b.nextSeq.toNat ≤ oldest.1.toNat := UInt32.le_iff_toNat_le.mp hMoved.2
            rw [UInt32.le_iff_toNat_le, toNat_succ_of_lt hLess]
            omega
          case isFalse => exact le_refl _
  | pop =>
      have hRoom := hWrap rfl
      have hAdvanced : b.nextSeq ≤ b.nextSeq + 1 := by
        rw [UInt32.le_iff_toNat_le, UInt32.toNat_add, UInt32.toNat_one, Nat.mod_eq_of_lt hRoom]
        omega
      have hStart : b.startPlayback = some b := by rw [JitterBuffer.startPlayback, if_pos hStarted]
      have hPopped := pop_popped b
      change b.nextSeq ≤ b.pop.2.nextSeq
      generalize b.pop = result at hPopped ⊢
      cases hPopped with
      | filling => exact le_refl _
      | missed s hIs =>
          cases Option.some.inj (hStart.symm.trans hIs)
          exact hAdvanced
      | resynced s atCap hIs =>
          cases Option.some.inj (hStart.symm.trans hIs)
          exact hAdvanced
      | played s frame atCap hIs =>
          cases Option.some.inj (hStart.symm.trans hIs)
          exact hAdvanced

/-- Over calls that leave playback started throughout. -/
theorem nextSeq_run {b : JitterBuffer φ} (hValid : b.Valid) {calls : List (Call φ)}
    (hStarted : ∀ part, part <+: calls → (b.run part).started = true)
    (hWrap : ∀ part rest, calls = part ++ .pop :: rest → (b.run part).nextSeq.toNat + 1 < 2 ^ 32) :
    b.nextSeq ≤ (b.run calls).nextSeq := by
  induction calls using List.reverseRecOn with
  | nil => exact le_refl _
  | append_singleton calls call ih =>
      have hBefore : b.nextSeq ≤ (b.run calls).nextSeq := by
        apply ih
        · exact fun part hPart => hStarted part (hPart.trans (List.prefix_append calls [call]))
        · intro part rest hEq
          apply hWrap part (rest ++ [call])
          rw [hEq, List.append_assoc]
          rfl
      have hStep := nextSeq_step (hValid.run calls) (hStarted calls (List.prefix_append calls [call])) call
        (fun hPop => hWrap calls [] (by rw [hPop]))
      rw [run_append]
      exact hBefore.trans hStep

/-- Within an episode the frames come back in the order of their
sequence numbers, and each is the frame of the last push of its number
that was taken. -/
theorem played_in_order {targetDepth : Nat} (maxDepth : Nat) (hTarget : 1 ≤ targetDepth) (calls : List (Call φ))
    (hWrap : NoWrap (new targetDepth maxDepth) calls) :
    let b : JitterBuffer φ := new targetDepth maxDepth
    (∀ before mid after frame later, calls = before ++ .pop :: (mid ++ .pop :: after) →
        (b.run before).pop.1 = some frame → (b.run (before ++ .pop :: mid)).pop.1 = some later →
        (∀ part, part <+: mid → (b.run (before ++ .pop :: part)).started = true) →
        ∃ s t, (b.run before).upcoming = some s ∧ (b.run (before ++ .pop :: mid)).upcoming = some t ∧ s < t) ∧
      ∀ before after frame, calls = before ++ .pop :: after → (b.run before).pop.1 = some frame →
        ∃ s, (b.run before).upcoming = some s ∧ LastTaken b before s frame := by
  intro b
  have hValid : b.Valid := valid_new hTarget
  constructor
  · intro before mid after frame later hCalls hFirst hSecond hEpisode
    obtain ⟨s, hStart, -, -, hNext⟩ := pop_eq_some hFirst
    have hUpcoming : (b.run before).upcoming = some s.nextSeq := congrArg (Option.map nextSeq) hStart
    have hRoom : s.nextSeq.toNat + 1 < 2 ^ 32 := hWrap before _ hCalls s.nextSeq hUpcoming
    have hAgain : b.run (before ++ .pop :: mid) = (b.run before).pop.2.run mid := run_append _ _ _
    have hLasts : (b.run (before ++ .pop :: mid)).startPlayback = some (b.run (before ++ .pop :: mid)) := by
      rw [JitterBuffer.startPlayback, if_pos (hEpisode mid (List.prefix_refl mid))]
    have hForward : (b.run before).pop.2.nextSeq ≤ ((b.run before).pop.2.run mid).nextSeq := by
      apply nextSeq_run (hValid.run before).pop
      · intro part hPart
        have hStarted := hEpisode part hPart
        rwa [run_append] at hStarted
      · intro part rest hMid
        have hStarted := hEpisode part (hMid ▸ List.prefix_append part _)
        apply hWrap (before ++ .pop :: part) (rest ++ .pop :: after)
        · rw [hCalls, hMid]
          simp only [List.append_assoc, List.cons_append]
        · rw [upcoming, JitterBuffer.startPlayback, if_pos hStarted, run_append]
          rfl
    refine ⟨s.nextSeq, _, hUpcoming, congrArg (Option.map nextSeq) hLasts, ?_⟩
    rw [hNext, ← hAgain] at hForward
    rw [UInt32.lt_iff_toNat_lt]
    have hNat := UInt32.le_iff_toNat_le.mp hForward
    rw [UInt32.toNat_add, UInt32.toNat_one, Nat.mod_eq_of_lt hRoom] at hNat
    exact hNat
  · intro before after frame hCalls hPop
    obtain ⟨s, hStart, hMem, -⟩ := pop_eq_some hPop
    exact ⟨s.nextSeq, congrArg (Option.map nextSeq) hStart, buffered_lastTaken hValid rfl before _ hMem⟩

theorem played_in_order_twice :
    let b : JitterBuffer Nat := new 1 4
    let calls : List (Call Nat) := [.push 8 80, .push 7 70, .pop, .pop]
    NoWrap b calls ∧
      ∃ s t, (b.run (calls.take 2)).upcoming = some s ∧ (b.run (calls.take 3)).upcoming = some t ∧ s < t := by
  intro b calls
  have hWrap : NoWrap b calls := by
    intro before after hEq seq hSeq
    change [.push 8 80, .push 7 70, .pop, .pop] = before ++ .pop :: after at hEq
    rcases before with _ | ⟨_, _ | ⟨_, _ | ⟨_, _ | ⟨_, before⟩⟩⟩⟩
    · cases hEq
    · cases hEq
    · cases hEq
      have hSeven : (b.run [.push 8 80, .push 7 70]).upcoming = some 7 := by decide +kernel
      rw [hSeven] at hSeq
      cases hSeq
      decide
    · cases hEq
      have hEight : (b.run [.push 8 80, .push 7 70, .pop]).upcoming = some 8 := by decide +kernel
      rw [hEight] at hSeq
      cases hSeq
      decide
    · simp at hEq
  refine ⟨hWrap, ?_⟩
  apply (played_in_order 4 (Nat.le_refl 1) calls hWrap).1 (calls.take 2) [] [] 70 80 rfl
  · decide +kernel
  · decide +kernel
  · intro part hPart
    cases List.prefix_nil.mp hPart
    decide +kernel

end NoCapKVM.Audio.JitterBuffer
