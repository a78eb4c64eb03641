import NoCapKVM.Audio.JitterBuffer
import NoCapKVM.EventLog.Latch

/-! The episodes at the ceiling that a jitter buffer counts: `at_cap_` is a latch, and
every operation that changes the depth looks at it. -/
namespace NoCapKVM.Audio.JitterBuffer

open EventLog

variable {φ : Type}

/-- `dropped_count` of a call. -/
def droppedBy (b : JitterBuffer φ) : Call φ → Nat
  | .push seq frame => (b.pushLocked seq frame).2
  | .pop => 0

/-- Call `i` drops a frame by the ceiling. -/
def DropsAt (b : JitterBuffer φ) (calls : List (Call φ)) (i : Nat) : Prop :=
  0 < calls[i]?.elim 0 (b.run (calls.take i)).droppedBy

/-- After call `k` the depth is at or below the recovery threshold. -/
def RecoveredAt (b : JitterBuffer φ) (calls : List (Call φ)) (k : Nat) : Prop :=
  k < calls.length ∧ (b.run (calls.take (k + 1))).depth ≤ (b.run (calls.take (k + 1))).recoveryThreshold

instance (b : JitterBuffer φ) (calls : List (Call φ)) : DecidablePred (b.DropsAt calls) :=
  fun _ => inferInstanceAs (Decidable (_ < _))

instance (b : JitterBuffer φ) (calls : List (Call φ)) : DecidablePred (b.RecoveredAt calls) :=
  fun _ => inferInstanceAs (Decidable (_ ∧ _))

/-- The threshold lies below the ceiling, so a buffer that drops has not
recovered. -/
theorem computeRecoveryThreshold_lt {maxDepth : Nat} (hPos : 1 ≤ maxDepth) :
    computeRecoveryThreshold maxDepth < maxDepth := by
  unfold computeRecoveryThreshold
  dsimp only
  split <;> omega

/-- A flag that is up has the depth above the threshold, so that a call
without the check can leave it. -/
structure Latched (b : JitterBuffer φ) : Prop where
  valid : b.Valid
  threshold_lt : b.recoveryThreshold < b.maxDepth
  above : b.atCap = true → b.recoveryThreshold < b.depth

/-- What a call does to the flag and to the counter. -/
structure LatchStep (b : JitterBuffer φ) (dropped : Nat) (after : JitterBuffer φ) : Prop where
  atCap : after.atCap = true ↔ 0 < dropped ∨ b.atCap = true ∧ after.recoveryThreshold < after.depth
  episodes : after.capEpisodes = b.capEpisodes + if 0 < dropped ∧ ¬ b.atCap = true then 1 else 0
  threshold : after.recoveryThreshold = b.recoveryThreshold

/-- A new buffer has its flag down. -/
theorem latched_new {targetDepth : Nat} (maxDepth : Nat) (hTarget : 1 ≤ targetDepth) :
    (new targetDepth maxDepth : JitterBuffer φ).Latched where
  valid := valid_new hTarget
  threshold_lt := by
    have hPos : 1 ≤ (new targetDepth maxDepth : JitterBuffer φ).maxDepth :=
      Nat.le_trans (valid_new hTarget).target_pos (valid_new hTarget).target_le
    exact computeRecoveryThreshold_lt hPos
  above := nofun

/-- The check takes the flag down where the depth has recovered, and counts
nothing. -/
theorem clearAtCapIfRecovered_latch (b : JitterBuffer φ) : LatchStep b 0 b.clearAtCapIfRecovered := by
  unfold clearAtCapIfRecovered
  split
  case isTrue hRecovered =>
    refine ⟨?_, rfl, rfl⟩
    refine iff_of_false Bool.false_ne_true ?_
    rintro (hDropped | ⟨-, hAbove⟩)
    · exact Nat.lt_irrefl 0 hDropped
    · exact Nat.not_lt.mpr hRecovered.2 hAbove
  case isFalse hKept =>
    refine ⟨?_, rfl, rfl⟩
    constructor
    · intro hAtCap
      exact .inr ⟨hAtCap, Nat.lt_of_not_le fun hLow => hKept ⟨hAtCap, hLow⟩⟩
    · rintro (hDropped | ⟨hAtCap, -⟩)
      · exact absurd hDropped (Nat.lt_irrefl 0)
      · exact hAtCap

/-- Noting a drop puts the flag up and counts an episode if it was down. -/
theorem noteDropped_latch (b : JitterBuffer φ) (dropped : Nat) : LatchStep b dropped (b.noteDropped dropped) := by
  unfold noteDropped
  by_cases hDropped : 0 < dropped
  · rw [if_pos hDropped]
    cases hAtCap : b.atCap with
    | true => exact ⟨iff_of_true hAtCap (.inl hDropped), by simp [hAtCap], rfl⟩
    | false => exact ⟨iff_of_true rfl (.inl hDropped), by simp [hDropped, hAtCap], rfl⟩
  · obtain rfl : dropped = 0 := by omega
    rw [if_neg hDropped]
    exact clearAtCapIfRecovered_latch b

/-- A call that leaves alone what the latch looks at. -/
theorem LatchStep.of_kept {b after : JitterBuffer φ} (hAbove : b.atCap = true → b.recoveryThreshold < b.depth)
    (hAtCap : after.atCap = b.atCap) (hEpisodes : after.capEpisodes = b.capEpisodes)
    (hThreshold : after.recoveryThreshold = b.recoveryThreshold) (hDepth : after.depth = b.depth) :
    LatchStep b 0 after where
  atCap := by
    rw [hAtCap, hThreshold, hDepth]
    constructor
    · intro hUp
      exact .inr ⟨hUp, hAbove hUp⟩
    · rintro (hDropped | ⟨hUp, -⟩)
      · exact absurd hDropped (Nat.lt_irrefl 0)
      · exact hUp
  episodes := hEpisodes
  threshold := hThreshold

/-- What the first steps of a call keep, its last step may start from. -/
theorem LatchStep.of_start {b start after : JitterBuffer φ} {dropped : Nat} (hStep : LatchStep start dropped after)
    (hAtCap : start.atCap = b.atCap) (hEpisodes : start.capEpisodes = b.capEpisodes)
    (hThreshold : start.recoveryThreshold = b.recoveryThreshold) : LatchStep b dropped after where
  atCap := hAtCap ▸ hStep.atCap
  episodes := hAtCap ▸ hEpisodes ▸ hStep.episodes
  threshold := hThreshold ▸ hStep.threshold

/-- The loop over the ceiling touches neither the flag nor the counter. -/
theorem dropToCap_kept (b : JitterBuffer φ) :
    b.dropToCap.1.atCap = b.atCap ∧ b.dropToCap.1.capEpisodes = b.capEpisodes ∧
      b.dropToCap.1.recoveryThreshold = b.recoveryThreshold := by
  induction b using dropToCap.induct with
  | case1 b hOver ih =>
      have hOldest : b.dropOldest.atCap = b.atCap ∧ b.dropOldest.capEpisodes = b.capEpisodes ∧
          b.dropOldest.recoveryThreshold = b.recoveryThreshold := by
        unfold dropOldest
        split <;> exact ⟨rfl, rfl, rfl⟩
      rw [dropToCap, if_pos hOver]
      exact ⟨ih.1.trans hOldest.1, ih.2.1.trans hOldest.2.1, ih.2.2.trans hOldest.2.2⟩
  | case2 b hFits =>
      rw [dropToCap, if_neg hFits]
      exact ⟨rfl, rfl, rfl⟩

/-- So a push counts an episode exactly when it drops with the flag down. -/
theorem pushLocked_latch {b : JitterBuffer φ} (hB : b.Latched) (seq : UInt32) (frame : φ) :
    LatchStep b (b.pushLocked seq frame).2 (b.pushLocked seq frame).1 := by
  unfold pushLocked
  split
  · exact .of_kept hB.above rfl rfl rfl rfl
  · have hKept := dropToCap_kept (b.store seq frame)
    exact (noteDropped_latch _ _).of_start hKept.1 hKept.2.1 hKept.2.2

/-- A pop drops nothing, and may take the flag down. -/
theorem pop_latch {b : JitterBuffer φ} (hB : b.Latched) : LatchStep b 0 b.pop.2 := by
  unfold pop
  cases hStart : b.startPlayback with
  | none => exact .of_kept hB.above rfl rfl rfl rfl
  | some s =>
      have hS : s.atCap = b.atCap ∧ s.capEpisodes = b.capEpisodes ∧
          s.recoveryThreshold = b.recoveryThreshold ∧ s.depth = b.depth := by
        rcases startPlayback_eq_some hStart with ⟨-, rfl⟩ | ⟨-, -, rfl⟩ <;> exact ⟨rfl, rfl, rfl, rfl⟩
      simp only [playNext]
      cases s.buffer.find? s.nextSeq with
      | none =>
          simp only [miss]
          split
          · -- the buffer is emptied, and the check made
            let cleared : JitterBuffer φ :=
              { s with nextSeq := s.nextSeq + 1, consecutiveMisses := 0, started := false, buffer := .empty }
            have hStep : LatchStep b 0 cleared.clearAtCapIfRecovered :=
              (clearAtCapIfRecovered_latch cleared).of_start hS.1 hS.2.1 hS.2.2.1
            exact ⟨hStep.atCap, hStep.episodes, hStep.threshold⟩
          · exact .of_kept hB.above hS.1 hS.2.1 hS.2.2.1 hS.2.2.2
      | some frame => exact (clearAtCapIfRecovered_latch _).of_start hS.1 hS.2.1 hS.2.2.1

/-- Every call treats the flag and the counter in one of these ways. -/
theorem step_latch {b : JitterBuffer φ} (hB : b.Latched) (call : Call φ) :
    LatchStep b (b.droppedBy call) (b.step call) := by
  cases call with
  | push seq frame => exact pushLocked_latch hB seq frame
  | pop => exact pop_latch hB

/-- A push that drops leaves the buffer full. -/
theorem depth_of_dropped {b : JitterBuffer φ} (hValid : b.Valid) {call : Call φ} (hDropped : 0 < b.droppedBy call) :
    (b.step call).depth = b.maxDepth := by
  cases call with
  | push seq frame =>
      have hPushed := pushLocked_pushed hValid.depth_le seq frame
      simp only [droppedBy, step] at hDropped ⊢
      generalize b.pushLocked seq frame = result at hPushed hDropped ⊢
      cases hPushed with
      | late => exact absurd hDropped (Nat.lt_irrefl 0)
      | fits => exact absurd hDropped (Nat.lt_irrefl 0)
      | dropped oldest atCap episodes hLate hSize hFirst =>
          change (b.buffer.insert seq frame).eraseFirst.size = b.maxDepth
          rw [OrderedMap.size_eraseFirst, hSize]
          rfl
  | pop => exact absurd hDropped (Nat.lt_irrefl 0)

/-- After a call a flag that is up still has the depth above the threshold. -/
theorem Latched.step {b : JitterBuffer φ} (hB : b.Latched) (call : Call φ) : (b.step call).Latched where
  valid := hB.valid.step call
  threshold_lt := by
    rw [(step_latch hB call).threshold, hB.valid.maxDepth_step]
    exact hB.threshold_lt
  above := by
    intro hUp
    rcases (step_latch hB call).atCap.mp hUp with hDropped | ⟨-, hAbove⟩
    · rw [(step_latch hB call).threshold, depth_of_dropped hB.valid hDropped]
      exact hB.threshold_lt
    · exact hAbove

/-- So it is after any calls. -/
theorem Latched.run {b : JitterBuffer φ} (hB : b.Latched) (calls : List (Call φ)) : (b.run calls).Latched := by
  induction calls generalizing b with
  | nil => exact hB
  | cons call calls ih => exact ih (hB.step call)

/-- The run of one more call is that call after the run before. -/
theorem run_take_succ (b : JitterBuffer φ) {calls : List (Call φ)} {n : Nat} (hLess : n < calls.length) :
    b.run (calls.take (n + 1)) = (b.run (calls.take n)).step calls[n] := by
  rw [List.take_succ_eq_append_getElem hLess, run_append]
  rfl

/-- Whether a call drops is decided in the state that it finds. -/
theorem dropsAt_iff (b : JitterBuffer φ) {calls : List (Call φ)} {n : Nat} (hLess : n < calls.length) :
    b.DropsAt calls n ↔ 0 < (b.run (calls.take n)).droppedBy calls[n] := by
  unfold DropsAt
  rw [List.getElem?_eq_getElem hLess]
  rfl

/-- Nothing happens after the last call. -/
theorem not_dropsAt_of_le (b : JitterBuffer φ) {calls : List (Call φ)} {n : Nat} (hEnd : calls.length ≤ n) :
    ¬ b.DropsAt calls n := by
  unfold DropsAt
  rw [List.getElem?_eq_none hEnd]
  exact Nat.lt_irrefl 0

/-- The flag is up after a call if that call has dropped, or if it was up and
the depth has not recovered. -/
theorem atCap_succ {b : JitterBuffer φ} (hB : b.Latched) (calls : List (Call φ)) (n : Nat) :
    (b.run (calls.take (n + 1))).atCap = true ↔
      b.DropsAt calls n ∨ (b.run (calls.take n)).atCap = true ∧ ¬ b.RecoveredAt calls n := by
  rcases Nat.lt_or_ge n calls.length with hLess | hEnd
  · rw [RecoveredAt, dropsAt_iff b hLess, and_iff_right hLess, run_take_succ b hLess, Nat.not_le]
    exact (step_latch (hB.run _) calls[n]).atCap
  · have hDrops := not_dropsAt_of_le b hEnd
    have hRecovered : ¬ b.RecoveredAt calls n := fun h => Nat.not_lt.mpr hEnd h.1
    rw [List.take_of_length_le hEnd, List.take_of_length_le (Nat.le_succ_of_le hEnd)]
    simp [hDrops, hRecovered]

/-- The counter grows with the calls that drop while the flag is down, which
are the starts of the episodes. -/
theorem capEpisodes_succ {b : JitterBuffer φ} (hB : b.Latched) (calls : List (Call φ)) (n : Nat) :
    (b.run (calls.take (n + 1))).capEpisodes = (b.run (calls.take n)).capEpisodes +
      if b.DropsAt calls n ∧ ¬ (b.run (calls.take n)).atCap = true then 1 else 0 := by
  rcases Nat.lt_or_ge n calls.length with hLess | hEnd
  · rw [run_take_succ b hLess, (step_latch (hB.run _) calls[n]).episodes]
    simp only [dropsAt_iff b hLess]
  · have hDrops := not_dropsAt_of_le b hEnd
    rw [List.take_of_length_le hEnd, List.take_of_length_le (Nat.le_succ_of_le hEnd)]
    simp [hDrops]

/-- `at_cap_` says that the depth has stayed above the recovery
threshold since the latest drop, and `cap_episodes()` counts the drops
that did not find it so. -/
theorem cap_hysteresis {targetDepth : Nat} (maxDepth : Nat) (hTarget : 1 ≤ targetDepth) (calls : List (Call φ)) :
    let b : JitterBuffer φ := new targetDepth maxDepth
    ((b.run calls).atCap = true ↔ Held (b.DropsAt calls) (b.RecoveredAt calls) calls.length) ∧
      (b.run calls).capEpisodes =
        Nat.count (StartsEpisode (b.DropsAt calls) (b.RecoveredAt calls)) calls.length := by
  intro b
  have hB : b.Latched := latched_new maxDepth hTarget
  have hStart : ¬ (b.run (calls.take 0)).atCap = true := Bool.false_ne_true
  let flag := fun n => (b.run (calls.take n)).atCap = true
  have hFlag := flag_iff_held flag hStart (atCap_succ hB calls) calls.length
  let counter := fun n => (b.run (calls.take n)).capEpisodes
  have hCount := counter_eq_episodes flag counter hStart (atCap_succ hB calls) rfl (capEpisodes_succ hB calls)
    calls.length
  simp only [flag, counter, List.take_length] at hFlag hCount
  exact ⟨hFlag, hCount⟩

/-- A ceiling of one has the threshold zero: only an empty buffer ends an
episode. -/
theorem cap_hysteresis_one :
    let b : JitterBuffer Nat := new 1 1
    let calls : List (Call Nat) := [.push 0 0, .push 1 1, .push 2 2, .pop, .push 3 3, .push 4 4]
    (b.run calls).capEpisodes = 2 ∧
      Nat.count (StartsEpisode (b.DropsAt calls) (b.RecoveredAt calls)) calls.length = 2 := by
  intro b calls
  have hCount := (cap_hysteresis (φ := Nat) 1 (Nat.le_refl 1) calls).2
  have hEpisodes : (b.run calls).capEpisodes = 2 := by decide +kernel
  exact ⟨hEpisodes, hCount ▸ hEpisodes⟩

end NoCapKVM.Audio.JitterBuffer
