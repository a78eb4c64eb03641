import NoCapKVM.Audio.JitterLedger

/-! How a jitter buffer that accepts nothing gets back to its initial fill state, and what
it plays from there. -/
namespace NoCapKVM.Audio.JitterBuffer

variable {φ : Type}

/-- As long as the buffer plays, each push comes too late. -/
def OnlyLate (b : JitterBuffer φ) : List (Call φ) → Prop
  | [] => True
  | .push seq frame :: calls => b.started = true → b.Late seq ∧ (b.step (.push seq frame)).OnlyLate calls
  | .pop :: calls => b.started = true → (b.step .pop).OnlyLate calls

/-- As it was made: waiting for its first frames. -/
def Refilling (b : JitterBuffer φ) : Prop :=
  b.started = false ∧ b.buffer = .empty

/-- The pops that the buffer can take before it gives up. -/
def popsLeft (b : JitterBuffer φ) : Nat :=
  kMaxConsecutiveMisses * b.depth + (kMaxConsecutiveMisses - b.consecutiveMisses)

theorem popsLeft_le (b : JitterBuffer φ) : b.popsLeft ≤ kMaxConsecutiveMisses * (b.depth + 1) := by
  rw [popsLeft, Nat.mul_succ]
  omega

/-- A hit uses up a frame, and a miss one of the misses that are left. -/
theorem pop_popsLeft {b : JitterBuffer φ} (hValid : b.Valid) (hStarted : b.started = true) :
    b.pop.2.Refilling ∨ b.pop.2.started = true ∧ b.pop.2.popsLeft < b.popsLeft := by
  have hMisses := hValid.misses_lt
  have hStart : b.startPlayback = some b := if_pos hStarted
  have hPopped := pop_popped b
  generalize b.pop = result at hPopped ⊢
  cases hPopped with
  | filling hNone =>
      rw [hStart] at hNone
      cases hNone
  | missed s hSome hFind hBelow =>
      obtain rfl := Option.some.inj (hStart.symm.trans hSome)
      refine .inr ⟨hStarted, ?_⟩
      simp only [popsLeft, depth]
      omega
  | resynced s atCap hSome => exact .inl ⟨rfl, rfl⟩
  | played s frame atCap hSome hFind =>
      obtain rfl := Option.some.inj (hStart.symm.trans hSome)
      refine .inr ⟨hStarted, ?_⟩
      have hSize := OrderedMap.size_erase_of_find? hFind
      simp only [popsLeft, depth, hSize, Nat.mul_succ]
      omega

theorem push_late {b : JitterBuffer φ} {seq : UInt32} (hLate : b.Late seq) (frame : φ) :
    b.step (.push seq frame) = b := by
  rw [step, pushLocked, if_pos hLate]

/-- With that many pops the buffer is refilling at some point. -/
theorem refills {b : JitterBuffer φ} (hValid : b.Valid) (hStarted : b.started = true) {calls : List (Call φ)}
    (hLate : b.OnlyLate calls) (hPops : b.popsLeft ≤ popCount calls) :
    ∃ played, played <+: calls ∧ popCount played ≤ b.popsLeft ∧ (b.run played).Refilling := by
  induction calls generalizing b with
  | nil =>
      have hMisses := hValid.misses_lt
      rw [popsLeft] at hPops
      simp only [popCount, List.countP_nil] at hPops
      omega
  | cons call calls ih =>
      cases call with
      | push seq frame =>
          obtain ⟨hSeq, hRest⟩ := hLate hStarted
          rw [push_late hSeq frame] at hRest
          obtain ⟨played, hPrefix, hCount, hEnd⟩ := ih hValid hStarted hRest hPops
          refine ⟨.push seq frame :: played, List.cons_prefix_cons.mpr ⟨rfl, hPrefix⟩, hCount, ?_⟩
          rw [run_cons, push_late hSeq frame]
          exact hEnd
      | pop =>
          have hCountPop : ∀ calls : List (Call φ), popCount (.pop :: calls) = popCount calls + 1 :=
            fun calls => List.countP_cons_of_pos rfl
          have hPos : 0 < b.popsLeft := by
            have hMisses := hValid.misses_lt
            rw [popsLeft]
            omega
          rcases pop_popsLeft hValid hStarted with hDone | ⟨hPlaying, hLess⟩
          · exact ⟨[.pop], List.cons_prefix_cons.mpr ⟨rfl, List.nil_prefix⟩, hPos, hDone⟩
          · rw [hCountPop] at hPops
            obtain ⟨played, hPrefix, hCount, hEnd⟩ :=
              ih hValid.pop hPlaying (hLate hStarted) (Nat.le_of_lt_succ (Nat.lt_of_lt_of_le hLess hPops))
            refine ⟨.pop :: played, List.cons_prefix_cons.mpr ⟨rfl, hPrefix⟩, ?_, hEnd⟩
            rw [hCountPop]
            omega

def pushes (frames : List (UInt32 × φ)) : List (Call φ) :=
  frames.map fun e => .push e.1 e.2

/-- A push into a buffer that does not play and has room. -/
theorem push_filling {b : JitterBuffer φ} (hValid : b.Valid) (hStopped : b.started = false) (seq : UInt32) (frame : φ)
    (hRoom : (b.buffer.insert seq frame).size ≤ b.maxDepth) :
    (b.step (.push seq frame)).started = false ∧
      (b.step (.push seq frame)).buffer = b.buffer.insert seq frame := by
  have hPushed := pushLocked_pushed hValid.depth_le seq frame
  rw [step]
  generalize b.pushLocked seq frame = result at hPushed ⊢
  cases hPushed with
  | late hLate => exact absurd (hLate.1.symm.trans hStopped) Bool.noConfusion
  | fits => exact ⟨hStopped, rfl⟩
  | dropped oldest atCap episodes _ hSize => omega

theorem started_push {b : JitterBuffer φ} (hValid : b.Valid) (seq : UInt32) (frame : φ) :
    (b.step (.push seq frame)).started = b.started := by
  have hPushed := pushLocked_pushed hValid.depth_le seq frame
  rw [step]
  generalize b.pushLocked seq frame = result at hPushed ⊢
  cases hPushed <;> rfl

/-- Pushes alone do not start playback. -/
theorem started_pushes {b : JitterBuffer φ} (hValid : b.Valid) (frames : List (UInt32 × φ)) :
    (b.run (pushes frames)).started = b.started := by
  induction frames generalizing b with
  | nil => rfl
  | cons e frames ih => exact (ih (hValid.step _)).trans (started_push hValid e.1 e.2)

/-- Pushes of new sequence numbers are all kept as long as there is room. -/
theorem filled {b : JitterBuffer φ} (hValid : b.Valid) (hStopped : b.started = false) {frames : List (UInt32 × φ)}
    (hDistinct : (frames.map Prod.fst).Nodup) (hNew : ∀ e ∈ frames, ∀ f ∈ b.buffer.entries, f.1 ≠ e.1)
    (hRoom : b.buffer.size + frames.length ≤ b.maxDepth) :
    (b.run (pushes frames)).buffer.size = b.buffer.size + frames.length ∧
      ∀ e, e ∈ (b.run (pushes frames)).buffer.entries ↔ e ∈ b.buffer.entries ∨ e ∈ frames := by
  induction frames generalizing b with
  | nil => simp [pushes]
  | cons e frames ih =>
      obtain ⟨hApart, hRest⟩ := List.nodup_cons.mp hDistinct
      have hSize : (b.buffer.insert e.1 e.2).size = b.buffer.size + 1 :=
        OrderedMap.size_insert_new (hNew e List.mem_cons_self) e.2
      rw [List.length_cons] at hRoom ⊢
      obtain ⟨hStill, hBuffer⟩ := push_filling hValid hStopped e.1 e.2 (by omega)
      have hMax : (b.step (.push e.1 e.2)).maxDepth = b.maxDepth := hValid.maxDepth_step _
      have hNewRest : ∀ e' ∈ frames, ∀ f ∈ (b.step (.push e.1 e.2)).buffer.entries, f.1 ≠ e'.1 := by
        intro e' hMem f hEntry
        rw [hBuffer] at hEntry
        rcases OrderedMap.mem_insert.mp hEntry with rfl | ⟨hOld, -⟩
        · exact fun hEq => hApart (hEq ▸ List.mem_map_of_mem hMem)
        · exact hNew e' (List.mem_cons_of_mem e hMem) f hOld
      obtain ⟨hRunSize, hRunMem⟩ :=
        ih (hValid.step _) hStill hRest hNewRest (by rw [hBuffer, hSize, hMax]; omega)
      refine ⟨?_, fun f => ?_⟩
      · show ((b.step (.push e.1 e.2)).run (pushes frames)).buffer.size = _
        rw [hRunSize, hBuffer, hSize]
        omega
      · show f ∈ ((b.step (.push e.1 e.2)).run (pushes frames)).buffer.entries ↔ _
        have hApartOld : f ∈ b.buffer.entries → f.1 ≠ e.1 := hNew e List.mem_cons_self f
        rw [hRunMem, hBuffer, OrderedMap.mem_insert, List.mem_cons]
        tauto

/-- Playback starts from the smallest number in the buffer. -/
theorem pop_filled {b : JitterBuffer φ} (hStopped : b.started = false) (hFilled : b.targetDepth ≤ b.buffer.size)
    {first : UInt32 × φ} (hFirst : b.buffer.first? = some first) : b.pop.1 = some first.2 := by
  have hMem : first ∈ b.buffer.entries := OrderedMap.entries_of_first? hFirst ▸ List.mem_cons_self
  have hFind : b.buffer.find? first.1 = some first.2 := OrderedMap.find?_eq_some_iff.mpr hMem
  have hStart : b.startPlayback = some { b with started := true, nextSeq := first.1, consecutiveMisses := 0 } := by
    unfold startPlayback
    rw [if_neg (by simp [hStopped]), if_neg (by omega), hFirst]
    rfl
  simp only [pop, hStart, playNext, hFind]

theorem Valid.targetDepth_run {b : JitterBuffer φ} (hValid : b.Valid) (calls : List (Call φ)) :
    (b.run calls).targetDepth = b.targetDepth := by
  induction calls generalizing b with
  | nil => rfl
  | cons call calls ih => rw [run_cons, ih (hValid.step call), (hValid.depths_step call).2]

/-- A buffer that plays and gets only late pushes is back in its initial fill
state within 40 pops for each frame it holds and 40 more. From there no push
is late, and after pushes of as many numbers as it waits for, the next pop
returns the frame of the smallest. -/
theorem recovers {targetDepth : Nat} (maxDepth : Nat) (hTarget : 1 ≤ targetDepth) (calls : List (Call φ)) :
    let b := (new targetDepth maxDepth : JitterBuffer φ).run calls
    b.started = true → ∀ more, b.OnlyLate more → 40 * (b.depth + 1) ≤ popCount more →
      ∃ played, played <+: more ∧ popCount played ≤ 40 * (b.depth + 1) ∧
        let s := b.run played
        s.started = false ∧ s.buffer = .empty ∧
          (∀ frames seq, ¬ (s.run (pushes frames)).Late seq) ∧
          (∀ seq frame, (s.step (.push seq frame)).buffer.find? seq = some frame) ∧
          ∀ frames, (frames.map Prod.fst).Nodup → frames.length = targetDepth →
            ∃ e ∈ frames, (∀ f ∈ frames, e.1 ≤ f.1) ∧ (s.run (pushes frames)).pop.1 = some e.2 := by
  intro b hStarted more hLate hPops
  have hValid : b.Valid := (valid_new hTarget).run calls
  obtain ⟨played, hPrefix, hCount, hStopped, hEmpty⟩ :=
    refills hValid hStarted hLate (Nat.le_trans b.popsLeft_le hPops)
  have hEnd : (b.run played).Valid := hValid.run played
  refine ⟨played, hPrefix, Nat.le_trans hCount b.popsLeft_le, hStopped, hEmpty, ?_, ?_, ?_⟩
  · intro frames seq hIs
    have hStill := started_pushes hEnd frames
    exact absurd ((hStill.trans hStopped).symm.trans hIs.1) Bool.noConfusion
  · intro seq frame
    have hRoom : ((b.run played).buffer.insert seq frame).size ≤ (b.run played).maxDepth := by
      rw [hEmpty]
      exact Nat.le_trans hEnd.target_pos hEnd.target_le
    rw [(push_filling hEnd hStopped seq frame hRoom).2]
    exact OrderedMap.find?_eq_some_iff.mpr (OrderedMap.mem_insert.mpr (.inl rfl))
  · intro frames hDistinct hLength
    have hDepth : (b.run played).targetDepth = targetDepth :=
      (hValid.targetDepth_run played).trans ((valid_new hTarget).targetDepth_run calls)
    have hSizes : (b.run played).buffer.size + frames.length = targetDepth := by
      rw [hEmpty, hLength]
      exact Nat.zero_add _
    obtain ⟨hSize, hMem⟩ := filled hEnd hStopped hDistinct (by simp [hEmpty])
      (by rw [hSizes, ← hDepth]; exact hEnd.target_le)
    rw [hSizes] at hSize
    have hStill := (started_pushes hEnd frames).trans hStopped
    have hFilled := (hEnd.targetDepth_run (pushes frames)).trans hDepth
    obtain ⟨first, hFirst⟩ := Option.isSome_iff_exists.mp (OrderedMap.first?_isSome (hSize ▸ hTarget))
    have hOnly : ∀ f, f ∈ ((b.run played).run (pushes frames)).buffer.entries ↔ f ∈ frames := by
      intro f
      rw [hMem, hEmpty]
      simp
    have hHead := OrderedMap.entries_of_first? hFirst ▸ List.mem_cons_self
    refine ⟨first, (hOnly first).mp hHead, fun f hF => OrderedMap.first?_le hFirst ((hOnly f).mpr hF), ?_⟩
    exact pop_filled hStill (Nat.le_of_eq (hFilled.trans hSize.symm)) hFirst

theorem onlyLate_pops (b : JitterBuffer φ) (n : Nat) : b.OnlyLate (List.replicate n .pop) := by
  induction n generalizing b with
  | zero => exact trivial
  | succ n ih => exact fun _ => ih _

/-- A frame that comes after 39 misses, 40 more misses, and a fresh start from
a smaller number. -/
theorem recovers_gap :
    let b := (new 1 4 : JitterBuffer Nat).run [.push 100 1, .pop, .push 140 2]
    let more : List (Call Nat) := List.replicate 80 .pop
    b.started = true ∧ 40 * (b.depth + 1) ≤ popCount more ∧
      ∃ played, played <+: more ∧ ∃ e : UInt32 × Nat, ((b.run played).run (pushes [(7, 3)])).pop.1 = some e.2 := by
  intro b more
  have hStarted : b.started = true := by decide +kernel
  have hPops : 40 * (b.depth + 1) ≤ popCount more := by decide +kernel
  obtain ⟨played, hPrefix, -, -, -, -, -, hPlays⟩ :=
    recovers 4 (Nat.le_refl 1) [.push 100 1, .pop, .push 140 2] hStarted more (onlyLate_pops b 80) hPops
  obtain ⟨e, -, -, hPop⟩ := hPlays [(7, 3)] (by decide) rfl
  exact ⟨hStarted, hPops, played, hPrefix, e, hPop⟩

end NoCapKVM.Audio.JitterBuffer
