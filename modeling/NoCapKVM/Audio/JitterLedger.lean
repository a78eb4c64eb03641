import NoCapKVM.Audio.JitterBuffer

/-! Where the frames pushed into a jitter buffer end up, and what its counters
say about them. -/
namespace NoCapKVM.Audio

inductive Fate where
  | late
  | overwritten
  | capDropped
  | discarded
  | returned
  | buffered
  deriving DecidableEq

def Call.frame? {φ : Type} : Call φ → Option φ
  | .push _ frame => some frame
  | .pop => none

def Call.map {φ ψ : Type} (f : φ → ψ) : Call φ → Call ψ
  | .push seq frame => .push seq (f frame)
  | .pop => .pop

/-- The calls with every frame marked by the position of its push. -/
def numbered {φ : Type} (n : Nat) : List (Call φ) → List (Call (Nat × φ))
  | [] => []
  | call :: calls => call.map (n, ·) :: numbered (n + 1) calls

namespace JitterBuffer

variable {φ ψ : Type}

def frames (b : JitterBuffer φ) : List φ := b.buffer.entries.map Prod.snd

/-- The frames that a call takes out of the hands of the buffer. -/
def departures (b : JitterBuffer φ) : Call φ → List (Fate × φ)
  | .push seq frame =>
    if b.Late seq then [(.late, frame)]
    else
      let kept := (b.pushLocked seq frame).1.buffer
      let gone := (b.buffer.insert seq frame).entries.filter fun e => (kept.find? e.1).isNone
      (b.buffer.find? seq).toList.map (Prod.mk .overwritten) ++ gone.map fun e => (.capDropped, e.2)
  | .pop =>
    b.pop.1.toList.map (Prod.mk .returned) ++
      if b.startPlayback.isSome ∧ b.pop.2.started = false then b.frames.map (Prod.mk .discarded) else []

/-- The fates of a run: what its calls took out, and what is
left in the end. -/
def ledger (b : JitterBuffer φ) : List (Call φ) → List (Fate × φ)
  | [] => b.frames.map (Prod.mk .buffered)
  | call :: calls => b.departures call ++ (b.step call).ledger calls

/-- An insertion adds its frame, and takes out the one that it overwrites. -/
theorem frames_insert (m : OrderedMap UInt32 φ) (seq : UInt32) (frame : φ) :
    ((m.find? seq).toList ++ (m.insert seq frame).entries.map Prod.snd).Perm (m.entries.map Prod.snd ++ [frame]) := by
  have hInsert := (m.insert_perm seq frame).map Prod.snd
  have hErase := (m.erase_perm seq).map Prod.snd
  simp only [List.map_append, List.map_map, List.map_cons] at hInsert hErase
  have hFound : (m.find? seq).toList.map (Prod.snd ∘ fun a => (seq, a)) = (m.find? seq).toList := List.map_id _
  rw [hFound] at hErase
  calc List.Perm _ ((m.find? seq).toList ++ frame :: (m.erase seq).entries.map Prod.snd) := hInsert.append_left _
    List.Perm _ (frame :: ((m.find? seq).toList ++ (m.erase seq).entries.map Prod.snd)) := List.perm_middle
    List.Perm _ (frame :: m.entries.map Prod.snd) := hErase.symm.cons frame
    List.Perm _ (m.entries.map Prod.snd ++ [frame]) := (List.perm_append_singleton _ _).symm

/-- Starting playback makes it started. -/
theorem started_of_startPlayback {b s : JitterBuffer φ} (hStart : b.startPlayback = some s) : s.started = true := by
  rcases startPlayback_eq_some hStart with ⟨hStarted, rfl⟩ | ⟨-, -, rfl⟩
  · exact hStarted
  · rfl

/-- It takes no frame out. -/
theorem frames_of_startPlayback {b s : JitterBuffer φ} (hStart : b.startPlayback = some s) : s.frames = b.frames := by
  rcases startPlayback_eq_some hStart with ⟨-, rfl⟩ | ⟨-, -, rfl⟩ <;> rfl

/-- What the ceiling takes away: nothing, or the first entry. -/
theorem gone_of_fits (m : OrderedMap UInt32 φ) : (m.entries.filter fun e => (m.find? e.1).isNone) = [] := by
  apply List.filter_eq_nil_iff.mpr
  intro e hMem
  rw [OrderedMap.find?_eq_some_iff.mpr (show (e.1, e.2) ∈ m.entries from hMem)]
  exact Bool.false_ne_true

/-- The ceiling takes out the oldest frame, and no other. -/
theorem gone_of_dropped {m : OrderedMap UInt32 φ} {oldest : UInt32 × φ} (hFirst : m.first? = some oldest) :
    (m.entries.filter fun e => (m.eraseFirst.find? e.1).isNone) = [oldest] := by
  have hEntries := OrderedMap.entries_of_first? hFirst
  have hOrdered := m.ordered
  rw [hEntries] at hOrdered
  have hGone : m.eraseFirst.find? oldest.1 = none := by
    apply OrderedMap.find?_eq_none_iff.mpr
    intro e hMem
    exact (ne_of_lt (List.rel_of_pairwise_cons hOrdered hMem)).symm
  have hKept := gone_of_fits m.eraseFirst
  rw [hEntries, List.filter_cons_of_pos (by rw [hGone]; rfl), hKept]

/-- One call moves frames about: what it was given and what was there is what
it takes out and what it leaves. -/
theorem departures_perm {b : JitterBuffer φ} (hValid : b.Valid) (call : Call φ) :
    ((b.departures call).map Prod.snd ++ (b.step call).frames).Perm (b.frames ++ call.frame?.toList) := by
  cases call with
  | push seq frame =>
      have hMoved := frames_insert b.buffer seq frame
      have hPushed := pushLocked_pushed hValid.depth_le seq frame
      simp only [departures, step]
      generalize b.pushLocked seq frame = result at hPushed ⊢
      cases hPushed with
      | late hLate =>
          rw [if_pos hLate]
          exact List.perm_append_comm
      | fits atCap episodes hLate hSize =>
          simp only [if_neg hLate, gone_of_fits, List.map_map, List.map_nil, List.append_nil]
          exact (List.map_id (b.buffer.find? seq).toList).symm ▸ hMoved
      | dropped oldest atCap episodes hLate hSize hFirst =>
          rw [OrderedMap.entries_of_first? hFirst] at hMoved
          simp only [if_neg hLate, gone_of_dropped hFirst, List.map_append, List.map_map, List.append_assoc]
          exact (List.map_id (b.buffer.find? seq).toList).symm ▸ hMoved
  | pop =>
      have hPopped := pop_popped b
      have hNone : b.frames ++ (Call.pop : Call φ).frame?.toList = b.frames := List.append_nil b.frames
      rw [hNone]
      simp only [departures, step]
      generalize b.pop = result at hPopped ⊢
      cases hPopped with
      | filling hStart =>
          simp only [hStart, Option.isSome_none, Bool.false_eq_true, false_and, if_false]
          exact .refl b.frames
      | missed s hStart hFind hMisses =>
          rw [← frames_of_startPlayback hStart]
          simp only [hStart, started_of_startPlayback hStart, Bool.true_eq_false, and_false, if_false]
          exact .refl s.frames
      | resynced s atCap hStart hFind hMisses =>
          simp only [hStart, Option.isSome_some, and_self, if_true, Option.toList_none, List.map_nil, List.nil_append,
            List.map_map]
          have hAll : b.frames.map (Prod.snd ∘ Prod.mk Fate.discarded) = b.frames := List.map_id b.frames
          rw [hAll]
          exact List.Perm.of_eq (List.append_nil b.frames)
      | played s frame atCap hStart hFind =>
          have hTaken := (s.buffer.erase_perm s.nextSeq).map Prod.snd
          rw [hFind] at hTaken
          rw [← frames_of_startPlayback hStart]
          simp only [hStart, started_of_startPlayback hStart, Bool.true_eq_false, and_false, if_false]
          exact hTaken.symm

/-- Frame by frame, what the ledger accounts for is what was there at first
and what was pushed since. -/
theorem ledger_perm {b : JitterBuffer φ} (hValid : b.Valid) (calls : List (Call φ)) :
    ((b.ledger calls).map Prod.snd).Perm (b.frames ++ calls.filterMap Call.frame?) := by
  induction calls generalizing b with
  | nil =>
      simp only [ledger, List.map_map, List.filterMap_nil, List.append_nil]
      exact (List.map_id b.frames).symm ▸ .refl _
  | cons call calls ih =>
      have hRest := (ih (hValid.step call)).append_left ((b.departures call).map Prod.snd)
      have hCall := (departures_perm hValid call).append_right (calls.filterMap Call.frame?)
      rw [ledger, List.map_append]
      have hSplit : (call :: calls).filterMap Call.frame? = call.frame?.toList ++ calls.filterMap Call.frame? := by
        rw [List.filterMap_cons]
        cases call.frame? <;> rfl
      rw [hSplit, ← List.append_assoc]
      rw [← List.append_assoc] at hRest
      exact hRest.trans hCall

/-- The positions count up from where the run begins. -/
theorem position_le {n : Nat} {calls : List (Call φ)} {p : Nat × φ}
    (hMem : p ∈ (numbered n calls).filterMap Call.frame?) : n ≤ p.1 := by
  induction calls generalizing n with
  | nil => cases hMem
  | cons call calls ih =>
      rw [numbered] at hMem
      cases call with
      | pop => exact Nat.le_of_succ_le (ih hMem)
      | push seq frame =>
          rcases List.mem_cons.mp hMem with rfl | hMem
          · exact Nat.le_refl n
          · exact Nat.le_of_succ_le (ih hMem)

/-- So no two pushes of a run have the same position. -/
theorem positions_nodup (n : Nat) (calls : List (Call φ)) :
    (((numbered n calls).filterMap Call.frame?).map Prod.fst).Nodup := by
  induction calls generalizing n with
  | nil => exact List.nodup_nil
  | cons call calls ih =>
      rw [numbered]
      cases call with
      | pop => exact ih (n + 1)
      | push seq frame =>
          refine List.nodup_cons.mpr ⟨?_, ih (n + 1)⟩
          intro hMem
          obtain ⟨p, hMem, hEq⟩ := List.mem_map.mp hMem
          have hAfter := position_le hMem
          have hHere : p.1 = n := hEq
          omega

/-- The buffer does the same whatever its frames are. -/
def map (f : φ → ψ) (b : JitterBuffer φ) : JitterBuffer ψ :=
  { b with buffer := b.buffer.map f }

section Naturality

variable (f : φ → ψ)

theorem clearAtCapIfRecovered_map (b : JitterBuffer φ) :
    (b.map f).clearAtCapIfRecovered = b.clearAtCapIfRecovered.map f := by
  simp only [clearAtCapIfRecovered, map, OrderedMap.size_map]
  split <;> rfl

/-- What the buffer does never depends on its frames, so it does the same with
frames that are marked. -/
theorem dropOldest_map (b : JitterBuffer φ) : (b.map f).dropOldest = b.dropOldest.map f := by
  simp only [dropOldest, map, OrderedMap.first?_map, OrderedMap.eraseFirst_map]
  cases b.buffer.first? <;> rfl

theorem dropToCap_map (b : JitterBuffer φ) : (b.map f).dropToCap = (b.dropToCap.1.map f, b.dropToCap.2) := by
  induction b using dropToCap.induct with
  | case1 b hOver ih =>
      rw [dropToCap.eq_1 b, if_pos hOver, dropToCap, if_pos (by simpa [map] using hOver), dropOldest_map, ih]
  | case2 b hFits =>
      rw [dropToCap.eq_1 b, if_neg hFits, dropToCap, if_neg (by simpa [map] using hFits)]

theorem noteDropped_map (b : JitterBuffer φ) (dropped : Nat) :
    (b.map f).noteDropped dropped = (b.noteDropped dropped).map f := by
  unfold noteDropped
  split
  · change (if b.atCap then _ else _) = _
    split <;> rfl
  · exact clearAtCapIfRecovered_map f b

theorem store_map (b : JitterBuffer φ) (seq : UInt32) (frame : φ) :
    (b.map f).store seq (f frame) = (b.store seq frame).map f := by
  simp only [store, map, OrderedMap.insert_map]

/-- A push treats marked frames as it treats those behind the marks. -/
theorem pushLocked_map (b : JitterBuffer φ) (seq : UInt32) (frame : φ) :
    (b.map f).pushLocked seq (f frame) = ((b.pushLocked seq frame).1.map f, (b.pushLocked seq frame).2) := by
  have hSame : (b.map f).Late seq ↔ b.Late seq := Iff.rfl
  unfold pushLocked
  by_cases hLate : b.Late seq
  · rw [if_pos hLate, if_pos (hSame.mpr hLate)]
  · rw [if_neg hLate, if_neg (hSame.not.mpr hLate)]
    simp only [store_map, dropToCap_map, noteDropped_map]

theorem startPlayback_map (b : JitterBuffer φ) : (b.map f).startPlayback = b.startPlayback.map (map f) := by
  simp only [startPlayback, map, OrderedMap.size_map, OrderedMap.first?_map]
  split
  · rfl
  · split
    · rfl
    · cases b.buffer.first? <;> rfl

theorem resync_map (b : JitterBuffer φ) : (b.map f).resync = b.resync.map f :=
  clearAtCapIfRecovered_map f { b with started := false, consecutiveMisses := 0, buffer := .empty }

theorem miss_map (b : JitterBuffer φ) : (b.map f).miss = b.miss.map f := by
  have hResync := resync_map f { b with consecutiveMisses := b.consecutiveMisses + 1 }
  unfold miss
  by_cases hMisses : kMaxConsecutiveMisses ≤ b.consecutiveMisses + 1
  · simp only [map] at hResync
    simp only [map, if_pos hMisses, hResync]
  · simp only [map, hMisses, if_false]

theorem take_map (b : JitterBuffer φ) (seq : UInt32) : (b.map f).take seq = (b.take seq).map f := by
  have hTaken := clearAtCapIfRecovered_map f
    { b with consecutiveMisses := 0, framesPlayed := b.framesPlayed + 1, buffer := b.buffer.erase seq }
  simp only [map, ← OrderedMap.erase_map] at hTaken
  simp only [take, map, hTaken]

/-- So does a pop, which returns the marked frame where it would have returned
the frame. -/
theorem pop_map (b : JitterBuffer φ) : (b.map f).pop = (b.pop.1.map f, b.pop.2.map f) := by
  unfold pop
  rw [startPlayback_map]
  cases b.startPlayback with
  | none => rfl
  | some s =>
      have hFind : (s.map f).buffer.find? (s.map f).nextSeq = (s.buffer.find? s.nextSeq).map f :=
        OrderedMap.find?_map ..
      have hMiss := miss_map f { s with nextSeq := s.nextSeq + 1 }
      have hTake := take_map f { s with nextSeq := s.nextSeq + 1 } s.nextSeq
      simp only [Option.map_some, playNext, hFind]
      cases s.buffer.find? s.nextSeq with
      | none => exact congrArg (Prod.mk none) hMiss
      | some frame => exact congrArg (Prod.mk (some (f frame))) hTake

/-- So does every call. -/
theorem step_map (b : JitterBuffer φ) (call : Call φ) : (b.map f).step (call.map f) = (b.step call).map f := by
  cases call with
  | push seq frame => exact congrArg Prod.fst (pushLocked_map f b seq frame)
  | pop => exact congrArg Prod.snd (pop_map f b)

end Naturality

/-- A run of marked frames is the run itself once the marks are taken off. -/
theorem run_numbered (b : JitterBuffer (Nat × φ)) (n : Nat) (calls : List (Call φ)) :
    (b.run (numbered n calls)).map Prod.snd = (b.map Prod.snd).run calls := by
  induction calls generalizing b n with
  | nil => rfl
  | cons call calls ih =>
      have hCall : (call.map fun frame => (n, frame)).map Prod.snd = call := by cases call <;> rfl
      have hStep := step_map Prod.snd b (call.map fun frame => (n, frame))
      rw [hCall] at hStep
      rw [numbered, run_cons, ih, run_cons, hStep]

/-- The calls, with the counters of the process. -/
def stepCounted (state : Counters × JitterBuffer φ) : Call φ → Counters × JitterBuffer φ
  | .push seq frame => push state.1 state.2 seq frame
  | .pop => (state.1, state.2.pop.2)

def capDrops (fates : List (Fate × φ)) : Nat :=
  fates.countP fun e => e.1 = .capDropped

/-- The pops that find the buffer still filling. -/
def fillingPops (b : JitterBuffer φ) : List (Call φ) → Nat
  | [] => 0
  | .push seq frame :: calls => (b.step (.push seq frame)).fillingPops calls
  | .pop :: calls => (if b.startPlayback.isNone then 1 else 0) + (b.step .pop).fillingPops calls

def popCount (calls : List (Call φ)) : Nat :=
  calls.countP fun call => call.frame?.isNone

/-- The counters do not influence the buffer. -/
theorem stepCounted_snd (state : Counters × JitterBuffer φ) (call : Call φ) :
    (stepCounted state call).2 = state.2.step call := by
  cases call <;> rfl

/-- The counter of the process grows with the frames that the ceiling takes
out, and with no others. -/
theorem capDrops_step {state : Counters × JitterBuffer φ} (hValid : state.2.Valid) (call : Call φ) :
    (stepCounted state call).1.audioPacketsDroppedCap =
      state.1.audioPacketsDroppedCap + capDrops (state.2.departures call) := by
  obtain ⟨counters, b⟩ := state
  cases call with
  | push seq frame =>
      have hOverwritten : capDrops ((b.buffer.find? seq).toList.map (Prod.mk .overwritten)) = 0 := by
        cases b.buffer.find? seq <;> rfl
      have hPushed := pushLocked_pushed hValid.depth_le seq frame
      simp only [stepCounted, push, departures]
      generalize b.pushLocked seq frame = result at hPushed ⊢
      cases hPushed with
      | late hLate =>
          rw [if_pos hLate]
          rfl
      | fits atCap episodes hLate hSize =>
          simp only [if_neg hLate, gone_of_fits, List.map_nil, List.append_nil, hOverwritten]
          rfl
      | dropped oldest atCap episodes hLate hSize hFirst =>
          simp only [if_neg hLate, gone_of_dropped hFirst, capDrops, List.countP_append] at hOverwritten ⊢
          rw [hOverwritten]
          rfl
  | pop =>
      have hReturned : capDrops (b.pop.1.toList.map (Prod.mk .returned)) = 0 := by
        cases b.pop.1 <;> rfl
      have hDiscarded : capDrops (b.frames.map (Prod.mk .discarded)) = 0 := by
        simp [capDrops]
      simp only [stepCounted, departures]
      split
      · simp only [capDrops, List.countP_append] at hReturned hDiscarded ⊢
        rw [hReturned, hDiscarded]
        rfl
      · rw [List.append_nil, hReturned]
        rfl

/-- So over a run it has grown by the number of such fates in the ledger. -/
theorem capDrops_run {state : Counters × JitterBuffer φ} (hValid : state.2.Valid) (calls : List (Call φ)) :
    (calls.foldl stepCounted state).1.audioPacketsDroppedCap =
      state.1.audioPacketsDroppedCap + capDrops (state.2.ledger calls) := by
  induction calls generalizing state with
  | nil => simp [ledger, capDrops]
  | cons call calls ih =>
      have hNext : (stepCounted state call).2 = state.2.step call := stepCounted_snd state call
      have hStepped : (stepCounted state call).2.Valid := hNext ▸ hValid.step call
      have hRest := ih hStepped
      rw [List.foldl_cons, hRest, capDrops_step hValid, hNext, ledger]
      simp only [capDrops, List.countP_append]
      omega

/-- Pops that found the buffer filling, pops that missed and pops
that played. -/
theorem popCount_run {b : JitterBuffer φ} (hValid : b.Valid) (calls : List (Call φ)) :
    popCount calls + b.playoutMisses + b.framesPlayed =
      b.fillingPops calls + (b.run calls).playoutMisses + (b.run calls).framesPlayed := by
  induction calls generalizing b with
  | nil => simp [popCount, fillingPops]
  | cons call calls ih =>
      have hRest := ih (hValid.step call)
      cases call with
      | push seq frame =>
          have hPushed := pushLocked_pushed hValid.depth_le seq frame
          have hSame : ((b.step (.push seq frame)).playoutMisses = b.playoutMisses) ∧
              (b.step (.push seq frame)).framesPlayed = b.framesPlayed := by
            simp only [step]
            generalize b.pushLocked seq frame = result at hPushed ⊢
            cases hPushed <;> exact ⟨rfl, rfl⟩
          rw [hSame.1, hSame.2] at hRest
          exact hRest
      | pop =>
          have hStarts (s : JitterBuffer φ) (hStart : b.startPlayback = some s) :
              s.playoutMisses = b.playoutMisses ∧ s.framesPlayed = b.framesPlayed := by
            rcases startPlayback_eq_some hStart with ⟨-, rfl⟩ | ⟨-, -, rfl⟩ <;> exact ⟨rfl, rfl⟩
          have hOne : popCount (.pop :: calls) = popCount calls + 1 := List.countP_cons_of_pos rfl
          have hPopped := pop_popped b
          rw [run_cons, hOne, fillingPops]
          simp only [step] at hRest ⊢
          generalize b.pop = result at hPopped hRest ⊢
          cases hPopped with
          | filling hStart =>
              change popCount calls + b.playoutMisses + b.framesPlayed =
                b.fillingPops calls + (b.run calls).playoutMisses + (b.run calls).framesPlayed at hRest
              simp only [hStart, Option.isNone_none, if_true]
              omega
          | missed s hStart =>
              have hSame := hStarts s hStart
              simp only [hStart, Option.isNone_some, Bool.false_eq_true, if_false, hSame] at hRest ⊢
              omega
          | resynced s atCap hStart =>
              have hSame := hStarts s hStart
              simp only [hStart, Option.isNone_some, Bool.false_eq_true, if_false, hSame] at hRest ⊢
              omega
          | played s frame atCap hStart =>
              have hSame := hStarts s hStart
              simp only [hStart, Option.isNone_some, Bool.false_eq_true, if_false, hSame] at hRest ⊢
              omega

/-- An entry of a list whose marks are distinct is the only one
with its mark. -/
theorem filter_mark {fates : List (Fate × Nat × φ)} (hNodup : ((fates.map Prod.snd).map Prod.fst).Nodup)
    {fate : Fate} {p : Nat × φ} (hMem : (fate, p) ∈ fates) :
    fates.filter (fun e => e.2.1 = p.1) = [(fate, p)] := by
  induction fates with
  | nil => cases hMem
  | cons e fates ih =>
      simp only [List.map_cons, List.nodup_cons] at hNodup
      rcases List.mem_cons.mp hMem with rfl | hMem
      · rw [List.filter_cons_of_pos (by exact decide_eq_true rfl), List.filter_eq_nil_iff.mpr]
        intro other hOther
        have hApart : other.2.1 ≠ p.1 := by
          intro hEq
          exact hNodup.1 (hEq ▸ List.mem_map_of_mem (List.mem_map_of_mem hOther))
        simpa using hApart
      · have hApart : e.2.1 ≠ p.1 := by
          intro hEq
          have hMark : p.1 ∈ (fates.map Prod.snd).map Prod.fst := List.mem_map_of_mem (List.mem_map_of_mem hMem)
          exact hNodup.1 (hEq ▸ hMark)
        rw [List.filter_cons_of_neg (by simpa using hApart), ih hNodup.2 hMem]

/-- Every pushed frame has one entry in the ledger of its run, the entries for
the ceiling are what the counter of the process grew by, and every pop found
the buffer filling, missed or played. -/
theorem conservation {targetDepth : Nat} (maxDepth : Nat) (hTarget : 1 ≤ targetDepth) (counters : Counters)
    (calls : List (Call φ)) :
    let b : JitterBuffer φ := new targetDepth maxDepth
    let marked : JitterBuffer (Nat × φ) := new targetDepth maxDepth
    ((marked.run (numbered 0 calls)).map Prod.snd = b.run calls ∧
        ∀ p ∈ (numbered 0 calls).filterMap Call.frame?,
          ∃ fate, (marked.ledger (numbered 0 calls)).filter (fun e => e.2.1 = p.1) = [(fate, p)]) ∧
      (calls.foldl stepCounted (counters, b)).1.audioPacketsDroppedCap =
        counters.audioPacketsDroppedCap + capDrops (b.ledger calls) ∧
      popCount calls = b.fillingPops calls + (b.run calls).playoutMisses + (b.run calls).framesPlayed := by
  intro b marked
  have hPerm : ((marked.ledger (numbered 0 calls)).map Prod.snd).Perm ((numbered 0 calls).filterMap Call.frame?) :=
    ledger_perm (valid_new hTarget) (numbered 0 calls)
  refine ⟨⟨run_numbered marked 0 calls, ?_⟩, capDrops_run (valid_new hTarget) calls,
    popCount_run (valid_new hTarget) calls⟩
  intro p hPushed
  obtain ⟨⟨fate, entry⟩, hMem, rfl⟩ := List.mem_map.mp (hPerm.mem_iff.mpr hPushed)
  have hNodup := ((hPerm.map Prod.fst).nodup_iff).mpr (positions_nodup 0 calls)
  exact ⟨fate, filter_mark hNodup hMem⟩

/-- The first of two frames with one number is overwritten, and has that as
its one fate. -/
theorem conservation_overwritten :
    1 ≤ 1 ∧ ∃ fate, ((new 1 1 : JitterBuffer (Nat × Nat)).ledger (numbered 0 [.push 5 50, .push 5 51, .pop])).filter
      (fun e => e.2.1 = 0) = [(fate, (0, 50))] :=
  ⟨Nat.le_refl 1,
    (conservation 1 (Nat.le_refl 1) {} [.push 5 50, .push 5 51, .pop]).1.2 (0, 50) (List.mem_cons_self)⟩

end JitterBuffer

end NoCapKVM.Audio
