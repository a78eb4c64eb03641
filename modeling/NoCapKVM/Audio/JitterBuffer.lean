import Mathlib.Algebra.Order.Ring.Nat
import NoCapKVM.Container.OrderedMap

/-! `audio/jitter_buffer.cpp`: the frames waiting for playback, in the order of
their sequence numbers. -/
namespace NoCapKVM.Audio

instance linearOrderUInt32 : LinearOrder UInt32 where
  le_refl _ := UInt32.le_refl _
  le_trans _ _ _ := UInt32.le_trans
  le_antisymm _ _ := UInt32.le_antisymm
  le_total := UInt32.le_total
  lt_iff_le_not_ge _ _ := Std.LawfulOrderLT.lt_iff _ _
  toDecidableLE := inferInstance
  toDecidableEq := inferInstance
  toDecidableLT := inferInstance

def kMaxConsecutiveMisses : Nat := 40

theorem kMaxConsecutiveMisses_pos : 0 < kMaxConsecutiveMisses := by decide

def computeRecoveryThreshold (maxDepth : Nat) : Nat :=
  let margin := max 1 (maxDepth / 10)
  if margin < maxDepth then maxDepth - margin else 0

/-- The buffer moves its frames about and never looks into them. -/
structure JitterBuffer (φ : Type) where
  buffer : OrderedMap UInt32 φ := .empty
  targetDepth : Nat
  maxDepth : Nat
  recoveryThreshold : Nat
  started : Bool := false
  nextSeq : UInt32 := 0
  atCap : Bool := false
  capEpisodes : Nat := 0
  playoutMisses : Nat := 0
  framesPlayed : Nat := 0
  consecutiveMisses : Nat := 0

/-- What `push` adds to among the counters of the process. -/
structure Counters where
  audioPacketsDroppedCap : Nat := 0

namespace JitterBuffer

variable {φ ψ : Type}

def new (targetDepth maxDepth : Nat) : JitterBuffer φ :=
  let maxDepth := if maxDepth < targetDepth then targetDepth else maxDepth
  { targetDepth := targetDepth
    maxDepth := maxDepth
    recoveryThreshold := computeRecoveryThreshold maxDepth }

def depth (b : JitterBuffer φ) : Nat := b.buffer.size

def clearAtCapIfRecovered (b : JitterBuffer φ) : JitterBuffer φ :=
  if b.atCap ∧ b.buffer.size ≤ b.recoveryThreshold then { b with atCap := false } else b

/-- Playback has moved past the sequence number. -/
def Late (b : JitterBuffer φ) (seq : UInt32) : Prop :=
  b.started = true ∧ seq < b.nextSeq

instance (b : JitterBuffer φ) (seq : UInt32) : Decidable (b.Late seq) :=
  inferInstanceAs (Decidable (_ ∧ _))

/-- One pass of the loop over the ceiling. -/
def dropOldest (b : JitterBuffer φ) : JitterBuffer φ :=
  match b.buffer.first? with
  | none => b
  | some oldest =>
    { b with
      nextSeq := if b.started ∧ b.nextSeq ≤ oldest.1 then oldest.1 + 1 else b.nextSeq
      buffer := b.buffer.eraseFirst }

/-- One pass of the loop over the ceiling drops one frame. -/
theorem size_dropOldest (b : JitterBuffer φ) : b.dropOldest.buffer.size = b.buffer.size - 1 := by
  unfold dropOldest
  cases hFirst : b.buffer.first? with
  | none =>
      have hEmpty : ¬ 0 < b.buffer.size := fun h => by simpa [hFirst] using OrderedMap.first?_isSome h
      change b.buffer.size = b.buffer.size - 1
      omega
  | some oldest => exact OrderedMap.size_eraseFirst _

/-- The loop, with the number of frames it drops. -/
def dropToCap (b : JitterBuffer φ) : JitterBuffer φ × Nat :=
  if b.maxDepth < b.buffer.size then
    (b.dropOldest.dropToCap.1, b.dropOldest.dropToCap.2 + 1)
  else (b, 0)
  termination_by b.buffer.size
  decreasing_by all_goals (rw [size_dropOldest]; omega)

def noteDropped (b : JitterBuffer φ) (dropped : Nat) : JitterBuffer φ :=
  if 0 < dropped then
    if b.atCap then b else { b with atCap := true, capEpisodes := b.capEpisodes + 1 }
  else b.clearAtCapIfRecovered

/-- `buffer_[seq] = frame`. -/
def store (b : JitterBuffer φ) (seq : UInt32) (frame : φ) : JitterBuffer φ :=
  { b with buffer := b.buffer.insert seq frame }

/-- `push` under its lock, with `dropped_count`. -/
def pushLocked (b : JitterBuffer φ) (seq : UInt32) (frame : φ) : JitterBuffer φ × Nat :=
  if b.Late seq then (b, 0)
  else
    let kept := (b.store seq frame).dropToCap
    (kept.1.noteDropped kept.2, kept.2)

def push (counters : Counters) (b : JitterBuffer φ) (seq : UInt32) (frame : φ) : Counters × JitterBuffer φ :=
  let result := b.pushLocked seq frame
  (if 0 < result.2 then
      { counters with audioPacketsDroppedCap := counters.audioPacketsDroppedCap + result.2 }
    else counters,
    result.1)

/-- The first block of `pop`: nothing while the buffer is still filling. A map
without entries has no first key to start from. -/
def startPlayback (b : JitterBuffer φ) : Option (JitterBuffer φ) :=
  if b.started then some b
  else if b.buffer.size < b.targetDepth then none
  else
    some { b with
      started := true
      nextSeq := b.buffer.first?.elim b.nextSeq Prod.fst
      consecutiveMisses := 0 }

def resync (b : JitterBuffer φ) : JitterBuffer φ :=
  { b with started := false, consecutiveMisses := 0, buffer := .empty }.clearAtCapIfRecovered

def miss (b : JitterBuffer φ) : JitterBuffer φ :=
  let counted := { b with consecutiveMisses := b.consecutiveMisses + 1 }
  let after := if kMaxConsecutiveMisses ≤ counted.consecutiveMisses then counted.resync else counted
  { after with playoutMisses := after.playoutMisses + 1 }

def take (b : JitterBuffer φ) (seq : UInt32) : JitterBuffer φ :=
  { b with
    consecutiveMisses := 0
    framesPlayed := b.framesPlayed + 1
    buffer := b.buffer.erase seq }.clearAtCapIfRecovered

def playNext (b : JitterBuffer φ) : Option φ × JitterBuffer φ :=
  let advanced := { b with nextSeq := b.nextSeq + 1 }
  match b.buffer.find? b.nextSeq with
  | none => (none, advanced.miss)
  | some frame => (some frame, advanced.take b.nextSeq)

def pop (b : JitterBuffer φ) : Option φ × JitterBuffer φ :=
  match b.startPlayback with
  | none => (none, b)
  | some b => b.playNext

/-- Looking whether the buffer has recovered only touches the flag of the
ceiling. -/
theorem clearAtCapIfRecovered_eq (b : JitterBuffer φ) :
    ∃ atCap, b.clearAtCapIfRecovered = { b with atCap := atCap } := by
  unfold clearAtCapIfRecovered
  split
  · exact ⟨false, rfl⟩
  · exact ⟨b.atCap, rfl⟩

/-- Noting a drop only touches that flag and the count of episodes. -/
theorem noteDropped_eq (b : JitterBuffer φ) (dropped : Nat) :
    ∃ atCap episodes, b.noteDropped dropped = { b with atCap := atCap, capEpisodes := episodes } := by
  unfold noteDropped
  split
  · split
    · exact ⟨b.atCap, b.capEpisodes, rfl⟩
    · exact ⟨true, b.capEpisodes + 1, rfl⟩
  · obtain ⟨atCap, hEq⟩ := clearAtCapIfRecovered_eq b
    exact ⟨atCap, b.capEpisodes, hEq⟩

/-- A buffer that is not over its ceiling drops nothing. -/
theorem dropToCap_of_le {b : JitterBuffer φ} (hSize : b.buffer.size ≤ b.maxDepth) : b.dropToCap = (b, 0) := by
  rw [dropToCap, if_neg (Nat.not_lt.mpr hSize)]

/-- A single frame over the ceiling costs the oldest one. -/
theorem dropToCap_of_succ {b : JitterBuffer φ} (hSize : b.buffer.size = b.maxDepth + 1) :
    b.dropToCap = (b.dropOldest, 1) := by
  have hKept : b.dropOldest.maxDepth = b.maxDepth := by
    unfold dropOldest
    split <;> rfl
  have hDone : b.dropOldest.dropToCap = (b.dropOldest, 0) := by
    apply dropToCap_of_le
    rw [size_dropOldest, hKept]
    omega
  rw [dropToCap, if_pos (by omega), hDone]

/-- The three ways a push can go in a buffer that is not over its ceiling. -/
inductive Pushed (b : JitterBuffer φ) (seq : UInt32) (frame : φ) : JitterBuffer φ × Nat → Prop
  | late (hLate : b.Late seq) : Pushed b seq frame (b, 0)
  | fits (atCap : Bool) (episodes : Nat) (hLate : ¬ b.Late seq)
      (hSize : (b.buffer.insert seq frame).size ≤ b.maxDepth) :
      Pushed b seq frame
        ({ b with buffer := b.buffer.insert seq frame, atCap := atCap, capEpisodes := episodes }, 0)
  | dropped (oldest : UInt32 × φ) (atCap : Bool) (episodes : Nat) (hLate : ¬ b.Late seq)
      (hSize : (b.buffer.insert seq frame).size = b.maxDepth + 1)
      (hFirst : (b.buffer.insert seq frame).first? = some oldest) :
      Pushed b seq frame
        ({ b with
            nextSeq := if b.started ∧ b.nextSeq ≤ oldest.1 then oldest.1 + 1 else b.nextSeq
            buffer := (b.buffer.insert seq frame).eraseFirst
            atCap := atCap
            capEpisodes := episodes }, 1)

/-- A push goes in one of three ways: late, over the ceiling, or simply in. -/
theorem pushLocked_pushed {b : JitterBuffer φ} (hDepth : b.depth ≤ b.maxDepth) (seq : UInt32) (frame : φ) :
    Pushed b seq frame (b.pushLocked seq frame) := by
  by_cases hLate : b.Late seq
  · rw [pushLocked, if_pos hLate]
    exact .late hLate
  rw [pushLocked, if_neg hLate]
  let grown : JitterBuffer φ := b.store seq frame
  have hGrown : grown.buffer.size ≤ b.maxDepth + 1 := by
    have hErase := b.buffer.size_erase_le seq
    have hInsert := b.buffer.size_insert seq frame
    simp only [depth] at hDepth
    change (b.buffer.insert seq frame).size ≤ b.maxDepth + 1
    omega
  rcases Nat.le_or_eq_of_le_succ hGrown with hSize | hSize
  · obtain ⟨atCap, episodes, hNote⟩ := noteDropped_eq grown 0
    have hKept : grown.dropToCap = (grown, 0) := dropToCap_of_le hSize
    simp only [grown, store] at hKept hNote hSize
    simp only [store, hKept, hNote]
    exact .fits atCap episodes hLate hSize
  · have hSome : grown.buffer.first?.isSome := OrderedMap.first?_isSome (by omega)
    obtain ⟨oldest, hFirst⟩ := Option.isSome_iff_exists.mp hSome
    obtain ⟨atCap, episodes, hNote⟩ := noteDropped_eq grown.dropOldest 1
    have hKept : grown.dropToCap = (grown.dropOldest, 1) := dropToCap_of_succ hSize
    simp only [grown, store] at hKept hNote hSize hFirst
    simp only [store, hKept, hNote]
    simp only [dropOldest, hFirst]
    exact .dropped oldest atCap episodes hLate hSize hFirst

/-- The four ways a pop can go, from the state in which it looks
for a frame. -/
inductive Popped (b : JitterBuffer φ) : Option φ × JitterBuffer φ → Prop
  | filling (hStart : b.startPlayback = none) : Popped b (none, b)
  | missed (s : JitterBuffer φ) (hStart : b.startPlayback = some s) (hFind : s.buffer.find? s.nextSeq = none)
      (hMisses : s.consecutiveMisses + 1 < kMaxConsecutiveMisses) :
      Popped b (none, { s with
        nextSeq := s.nextSeq + 1
        consecutiveMisses := s.consecutiveMisses + 1
        playoutMisses := s.playoutMisses + 1 })
  | resynced (s : JitterBuffer φ) (atCap : Bool) (hStart : b.startPlayback = some s)
      (hFind : s.buffer.find? s.nextSeq = none) (hMisses : kMaxConsecutiveMisses ≤ s.consecutiveMisses + 1) :
      Popped b (none, { s with
        started := false
        nextSeq := s.nextSeq + 1
        consecutiveMisses := 0
        buffer := .empty
        atCap := atCap
        playoutMisses := s.playoutMisses + 1 })
  | played (s : JitterBuffer φ) (frame : φ) (atCap : Bool) (hStart : b.startPlayback = some s)
      (hFind : s.buffer.find? s.nextSeq = some frame) :
      Popped b (some frame, { s with
        nextSeq := s.nextSeq + 1
        consecutiveMisses := 0
        buffer := s.buffer.erase s.nextSeq
        atCap := atCap
        framesPlayed := s.framesPlayed + 1 })

/-- A pop goes in one of four ways, by whether it fills, finds its frame,
misses it, or gives up on it. -/
theorem pop_popped (b : JitterBuffer φ) : Popped b b.pop := by
  unfold pop
  cases hStart : b.startPlayback with
  | none => exact .filling hStart
  | some s =>
      simp only [playNext]
      cases hFind : s.buffer.find? s.nextSeq with
      | none =>
          simp only [miss]
          by_cases hMisses : kMaxConsecutiveMisses ≤ s.consecutiveMisses + 1
          · simp only [if_pos hMisses, resync]
            obtain ⟨atCap, hEq⟩ := clearAtCapIfRecovered_eq { s with
              nextSeq := s.nextSeq + 1, consecutiveMisses := 0, started := false, buffer := .empty }
            rw [hEq]
            exact .resynced s atCap hStart hFind hMisses
          · simp only [if_neg hMisses]
            exact .missed s hStart hFind (Nat.lt_of_not_le hMisses)
      | some frame =>
          simp only [take]
          obtain ⟨atCap, hEq⟩ := clearAtCapIfRecovered_eq { s with
            nextSeq := s.nextSeq + 1, consecutiveMisses := 0, framesPlayed := s.framesPlayed + 1,
            buffer := s.buffer.erase s.nextSeq }
          rw [hEq]
          exact .played s frame atCap hStart hFind

end JitterBuffer

inductive Call (φ : Type) where
  | push (seq : UInt32) (frame : φ)
  | pop
  deriving DecidableEq

namespace JitterBuffer

variable {φ : Type}

def step (b : JitterBuffer φ) : Call φ → JitterBuffer φ
  | .push seq frame => (b.pushLocked seq frame).1
  | .pop => b.pop.2

def run (b : JitterBuffer φ) (calls : List (Call φ)) : JitterBuffer φ :=
  calls.foldl step b

@[simp] theorem run_nil (b : JitterBuffer φ) : b.run [] = b := rfl

@[simp] theorem run_append (b : JitterBuffer φ) (calls more : List (Call φ)) :
    b.run (calls ++ more) = (b.run calls).run more :=
  List.foldl_append

@[simp] theorem run_cons (b : JitterBuffer φ) (call : Call φ) (calls : List (Call φ)) :
    b.run (call :: calls) = (b.step call).run calls := rfl

/-- What every operation keeps. -/
structure Valid (b : JitterBuffer φ) : Prop where
  target_pos : 1 ≤ b.targetDepth
  target_le : b.targetDepth ≤ b.maxDepth
  depth_le : b.depth ≤ b.maxDepth
  ahead : b.started = true → ∀ e ∈ b.buffer.entries, b.nextSeq ≤ e.1
  misses_lt : b.consecutiveMisses < kMaxConsecutiveMisses

/-- A new buffer is valid, for every depth that the program can ask for. -/
theorem valid_new {targetDepth maxDepth : Nat} (hTarget : 1 ≤ targetDepth) :
    (new targetDepth maxDepth : JitterBuffer φ).Valid where
  target_pos := hTarget
  target_le := by
    simp only [new]
    split <;> omega
  depth_le := Nat.zero_le _
  ahead := nofun
  misses_lt := kMaxConsecutiveMisses_pos

/-- The ceiling of a new buffer is no lower than its target. -/
theorem maxDepth_new (targetDepth maxDepth : Nat) :
    (new targetDepth maxDepth : JitterBuffer φ).maxDepth = max targetDepth maxDepth := by
  simp only [new]
  split <;> omega

/-- The number after a smaller one is at most the larger one. -/
theorem succ_le_of_lt {a b : UInt32} (hLess : a < b) : a + 1 ≤ b := by
  have hBelow : a.toNat < b.toNat := UInt32.lt_iff_toNat_lt.mp hLess
  have hSize : b.toNat < 2 ^ 32 := b.toNat_lt
  rw [UInt32.le_iff_toNat_le, UInt32.toNat_add, UInt32.toNat_one, Nat.mod_eq_of_lt (by omega)]
  exact hBelow

/-- A push keeps the buffer valid in each of its ways. -/
theorem Valid.pushLocked {b : JitterBuffer φ} (hValid : b.Valid) (seq : UInt32) (frame : φ) :
    (b.pushLocked seq frame).1.Valid := by
  have hPushed := pushLocked_pushed hValid.depth_le seq frame
  generalize b.pushLocked seq frame = result at hPushed ⊢
  have hAhead (hLate : ¬ b.Late seq) (hStarted : b.started = true) :
      ∀ e ∈ (b.buffer.insert seq frame).entries, b.nextSeq ≤ e.1 := by
    intro e hMem
    rcases OrderedMap.mem_insert.mp hMem with rfl | ⟨hOld, -⟩
    · exact not_lt.mp fun hLess => hLate ⟨hStarted, hLess⟩
    · exact hValid.ahead hStarted e hOld
  cases hPushed with
  | late => exact hValid
  | fits atCap episodes hLate hSize =>
      exact { hValid with depth_le := hSize, ahead := hAhead hLate }
  | dropped oldest atCap episodes hLate hSize hFirst =>
      have hEntries := OrderedMap.entries_of_first? hFirst
      have hKept : (b.buffer.insert seq frame).eraseFirst.size = b.maxDepth := by
        rw [OrderedMap.size_eraseFirst, hSize]
        rfl
      refine { hValid with depth_le := Nat.le_of_eq hKept, ahead := ?_ }
      intro hStarted e hMem
      have hOldest : b.nextSeq ≤ oldest.1 := hAhead hLate hStarted oldest (hEntries ▸ List.mem_cons_self)
      have hOrdered := (b.buffer.insert seq frame).ordered
      rw [hEntries] at hOrdered
      simp only [if_pos (And.intro hStarted hOldest)]
      exact succ_le_of_lt (List.rel_of_pairwise_cons hOrdered hMem)

/-- Playback starts from the first key of a buffer that has one. -/
theorem startPlayback_eq_some {b s : JitterBuffer φ} (hStart : b.startPlayback = some s) :
    b.started = true ∧ s = b ∨
      b.started = false ∧ b.targetDepth ≤ b.buffer.size ∧
        s = { b with started := true, nextSeq := b.buffer.first?.elim b.nextSeq Prod.fst, consecutiveMisses := 0 } := by
  unfold startPlayback at hStart
  split at hStart
  case isTrue hStarted => exact .inl ⟨hStarted, (Option.some.inj hStart).symm⟩
  case isFalse hStopped =>
    split at hStart
    · cases hStart
    · exact .inr ⟨(Bool.not_eq_true _).mp hStopped, by omega, (Option.some.inj hStart).symm⟩

/-- The start of playback takes its position from the first frame. -/
theorem Valid.startPlayback {b s : JitterBuffer φ} (hValid : b.Valid) (hStart : b.startPlayback = some s) :
    s.Valid ∧ s.started = true := by
  rcases startPlayback_eq_some hStart with ⟨hStarted, rfl⟩ | ⟨hStopped, hFilled, rfl⟩
  · exact ⟨hValid, hStarted⟩
  · refine ⟨{ hValid with ahead := ?_, misses_lt := kMaxConsecutiveMisses_pos }, rfl⟩
    intro _ e hMem
    cases hFirst : b.buffer.first? with
    | none =>
        have hSome := OrderedMap.first?_isSome (Nat.lt_of_lt_of_le hValid.target_pos hFilled)
        rw [hFirst] at hSome
        cases hSome
    | some oldest => exact OrderedMap.first?_le hFirst hMem

/-- A pop keeps the buffer valid in each of its ways. -/
theorem Valid.pop {b : JitterBuffer φ} (hValid : b.Valid) : b.pop.2.Valid := by
  have hPopped := pop_popped b
  generalize b.pop = result at hPopped ⊢
  have hPast {s : JitterBuffer φ} (hS : s.Valid ∧ s.started = true) {e : UInt32 × φ} (hMem : e ∈ s.buffer.entries)
      (hApart : e.1 ≠ s.nextSeq) : s.nextSeq + 1 ≤ e.1 :=
    succ_le_of_lt (lt_of_le_of_ne (hS.1.ahead hS.2 e hMem) hApart.symm)
  cases hPopped with
  | filling => exact hValid
  | missed s hStart hFind hMisses =>
      have hS := hValid.startPlayback hStart
      exact { hS.1 with
        ahead := fun _ e hMem => hPast hS hMem (OrderedMap.find?_eq_none_iff.mp hFind e hMem)
        misses_lt := hMisses }
  | resynced s atCap hStart =>
      have hS := hValid.startPlayback hStart
      exact { hS.1 with depth_le := Nat.zero_le _, ahead := nofun, misses_lt := kMaxConsecutiveMisses_pos }
  | played s frame atCap hStart hFind =>
      have hS := hValid.startPlayback hStart
      refine { hS.1 with depth_le := ?_, ahead := ?_, misses_lt := kMaxConsecutiveMisses_pos }
      · exact Nat.le_trans (s.buffer.size_erase_le s.nextSeq) hS.1.depth_le
      · intro _ e hMem
        have hKept := OrderedMap.mem_erase.mp hMem
        exact hPast hS hKept.1 hKept.2

/-- So does every call. -/
theorem Valid.step {b : JitterBuffer φ} (hValid : b.Valid) (call : Call φ) : (b.step call).Valid := by
  cases call with
  | push seq frame => exact hValid.pushLocked seq frame
  | pop => exact hValid.pop

/-- And so does every sequence of calls. -/
theorem Valid.run {b : JitterBuffer φ} (hValid : b.Valid) (calls : List (Call φ)) : (b.run calls).Valid := by
  induction calls generalizing b with
  | nil => exact hValid
  | cons call calls ih => exact ih (hValid.step call)

/-- The two depths are those of the construction. -/
theorem Valid.depths_step {b : JitterBuffer φ} (hValid : b.Valid) (call : Call φ) :
    (b.step call).maxDepth = b.maxDepth ∧ (b.step call).targetDepth = b.targetDepth := by
  cases call with
  | push seq frame =>
      have hPushed := pushLocked_pushed hValid.depth_le seq frame
      change (b.pushLocked seq frame).1.maxDepth = _ ∧ (b.pushLocked seq frame).1.targetDepth = _
      generalize b.pushLocked seq frame = result at hPushed ⊢
      cases hPushed <;> exact ⟨rfl, rfl⟩
  | pop =>
      have hStarts (s : JitterBuffer φ) (hStart : b.startPlayback = some s) :
          s.maxDepth = b.maxDepth ∧ s.targetDepth = b.targetDepth := by
        rcases startPlayback_eq_some hStart with ⟨-, rfl⟩ | ⟨-, -, rfl⟩ <;> exact ⟨rfl, rfl⟩
      have hPopped := pop_popped b
      change b.pop.2.maxDepth = _ ∧ b.pop.2.targetDepth = _
      generalize b.pop = result at hPopped ⊢
      cases hPopped with
      | filling => exact ⟨rfl, rfl⟩
      | missed s hStart => exact hStarts s hStart
      | resynced s atCap hStart => exact hStarts s hStart
      | played s frame atCap hStart => exact hStarts s hStart

/-- No call moves the ceiling. -/
theorem Valid.maxDepth_step {b : JitterBuffer φ} (hValid : b.Valid) (call : Call φ) :
    (b.step call).maxDepth = b.maxDepth :=
  (hValid.depths_step call).1

/-- So it is that of the start after any calls. -/
theorem Valid.maxDepth_run {b : JitterBuffer φ} (hValid : b.Valid) (calls : List (Call φ)) :
    (b.run calls).maxDepth = b.maxDepth := by
  induction calls generalizing b with
  | nil => rfl
  | cons call calls ih =>
      rw [run_cons, ih (hValid.step call), hValid.maxDepth_step]

end JitterBuffer

end NoCapKVM.Audio
