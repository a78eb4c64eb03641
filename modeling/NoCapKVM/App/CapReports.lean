import NoCapKVM.App.AudioPlayback
import NoCapKVM.Audio.CapEpisodes

/-! `counter_delta.h` and the reports of `telemetry::tick`: what the log says of the times at which
the jitter buffer was full. -/
namespace NoCapKVM.App.CapReports

open Audio Discovery

def kReportInterval : Time := seconds 60

structure GenerationCounter where
  generation : Nat := 0
  value : Nat := 0

def generationDelta (previous current : GenerationCounter) : Nat :=
  if current.generation ≠ previous.generation then current.value
  else if current.value ≥ previous.value then current.value - previous.value
  else 0

/-- The playback of a Master and the reports about it. `reports` has the
numbers of the lines `audio.jitter_buffer_cap_reached`. -/
structure Watch (φ : Type) where
  playback : Option (JitterBuffer φ) := none
  generation : Nat := 0
  intervalStart : Time := 0
  prevJitterCap : GenerationCounter := {}
  reports : List Nat := []

inductive Happening (φ : Type) where
  | start
  | stop
  | call (c : Call φ)
  | tick (now : Time)

namespace Watch

variable {φ : Type}

/-- The fields of `FrameContext` about the buffer. -/
def context (s : Watch φ) : GenerationCounter :=
  match s.playback with
  | some b => ⟨s.generation, b.capEpisodes⟩
  | none => {}

def report (s : Watch φ) (now : Time) : Watch φ :=
  let delta := generationDelta s.prevJitterCap s.context
  { s with
    reports := if delta > 0 then s.reports ++ [delta] else s.reports
    prevJitterCap := s.context
    intervalStart := now }

def tick (s : Watch φ) (now : Time) : Watch φ :=
  if now - s.intervalStart < kReportInterval then s else s.report now

def step (s : Watch φ) : Happening φ → Watch φ
  | .start => { s with playback := some (.new kTargetDepth kMaxDepth), generation := s.generation + 1 }
  | .stop => { s with playback := none }
  | .call c => { s with playback := s.playback.map (·.step c) }
  | .tick now => s.tick now

/-- The call makes the buffer drop a frame for the first time since it last
recovered. -/
def Begins (s : Watch φ) (c : Call φ) : Prop :=
  ∃ b ∈ s.playback, 0 < b.droppedBy c ∧ ¬ b.atCap = true

instance (s : Watch φ) (c : Call φ) : Decidable (s.Begins c) :=
  match h : s.playback with
  | none => isFalse fun ⟨b, hMem, _⟩ => by simp [h] at hMem
  | some b => decidable_of_iff (0 < b.droppedBy c ∧ ¬ b.atCap = true) (by simp [Begins, h])

end Watch

/-- What became of the episodes: no report has them yet, one has told them, or
their playback was gone before one was due. -/
structure Ledger where
  untold : Nat := 0
  told : Nat := 0
  lost : Nat := 0

namespace Ledger

variable {φ : Type}

def drop (l : Ledger) : Ledger :=
  { l with untold := 0, lost := l.lost + l.untold }

def tell (l : Ledger) : Ledger :=
  { l with untold := 0, told := l.told + l.untold }

def step (l : Ledger) (s : Watch φ) : Happening φ → Ledger
  | .start | .stop => l.drop
  | .call c => if s.Begins c then { l with untold := l.untold + 1 } else l
  | .tick now => if now - s.intervalStart < kReportInterval then l else l.tell

end Ledger

variable {φ : Type} {s : Watch φ} {l : Ledger}

def run (s : Watch φ) (l : Ledger) : List (Happening φ) → Watch φ × Ledger
  | [] => (s, l)
  | h :: happenings => run (s.step h) (l.step s h) happenings

/-- The difference of the counters is what is untold. -/
structure Agrees (s : Watch φ) (l : Ledger) : Prop where
  told : s.reports.sum = l.told
  untold : generationDelta s.prevJitterCap s.context = l.untold
  older : s.prevJitterCap.generation ≤ s.generation
  latched : ∀ b ∈ s.playback, b.Latched
  grown : ∀ b ∈ s.playback, s.prevJitterCap.generation = s.generation → s.prevJitterCap.value ≤ b.capEpisodes

/-- Between two equal counts nothing has happened. -/
theorem generationDelta_self (c : GenerationCounter) : generationDelta c c = 0 := by
  simp [generationDelta]

/-- A counter that shows zero has nothing to report. -/
theorem generationDelta_zero (previous : GenerationCounter) {current : GenerationCounter} (h : current.value = 0) :
    generationDelta previous current = 0 := by
  simp [generationDelta, h]

/-- A counter that goes on counting. -/
theorem generationDelta_add {previous : GenerationCounter} {generation value : Nat}
    (h : previous.generation = generation → previous.value ≤ value) (more : Nat) :
    generationDelta previous ⟨generation, value + more⟩ = generationDelta previous ⟨generation, value⟩ + more := by
  unfold generationDelta
  dsimp only
  by_cases hSame : generation = previous.generation
  · have hLe := h hSame.symm
    rw [if_neg (not_not.mpr hSame), if_neg (not_not.mpr hSame), if_pos (Nat.le_add_right_of_le hLe), if_pos hLe,
      Nat.sub_add_comm hLe]
  · rw [if_pos hSame, if_pos hSame]

/-- A new playback begins with a counter of its own, and the log does not know
of it yet. -/
theorem Agrees.start (h : Agrees s l) : Agrees (s.step .start) (l.step s .start) where
  told := h.told
  untold := generationDelta_zero _ rfl
  older := Nat.le_succ_of_le h.older
  latched b hMem := by
    obtain rfl := Option.some.inj hMem
    exact JitterBuffer.latched_new kMaxDepth (by decide)
  grown b _ hSame := absurd hSame (Nat.ne_of_lt (Nat.lt_succ_of_le h.older))

/-- A playback that ends takes its counter with it. -/
theorem Agrees.stop (h : Agrees s l) : Agrees (s.step .stop) (l.step s .stop) where
  told := h.told
  untold := generationDelta_zero _ rfl
  older := h.older
  latched b hMem := by cases hMem
  grown b hMem := by cases hMem

/-- What the buffer counts is told in the next report. -/
theorem Agrees.call (h : Agrees s l) (c : Call φ) : Agrees (s.step (.call c)) (l.step s (.call c)) := by
  cases hPlayback : s.playback with
  | none =>
      have hSame : s.step (.call c) = s := by
        cases s
        simp_all [Watch.step]
      have hNot : ¬ s.Begins c := by simp [Watch.Begins, hPlayback]
      rw [hSame, Ledger.step, if_neg hNot]
      exact h
  | some b =>
      have hMem : b ∈ s.playback := hPlayback
      have hB := h.latched b hMem
      have hStep := JitterBuffer.step_latch hB c
      have hNext : (s.step (.call c)).playback = some (b.step c) := by simp [Watch.step, hPlayback]
      have hContext : (s.step (.call c)).context = ⟨s.generation, (b.step c).capEpisodes⟩ := by
        rw [Watch.context, hNext]
        rfl
      have hBefore : s.context = ⟨s.generation, b.capEpisodes⟩ := by rw [Watch.context, hPlayback]
      have hLedger : l.step s (.call c) =
          { l with untold := l.untold + if 0 < b.droppedBy c ∧ ¬ b.atCap = true then 1 else 0 } := by
        have hBegins : s.Begins c ↔ 0 < b.droppedBy c ∧ ¬ b.atCap = true := by simp [Watch.Begins, hPlayback]
        rw [Ledger.step, if_congr hBegins rfl rfl]
        split <;> rfl
      rw [hLedger]
      refine ⟨h.told, ?_, h.older, ?_, ?_⟩
      · have hGrown := generationDelta_add (h.grown b hMem) (if 0 < b.droppedBy c ∧ ¬ b.atCap = true then 1 else 0)
        rw [← hStep.episodes, ← hContext, ← hBefore, h.untold] at hGrown
        exact hGrown
      · intro b' hMem'
        obtain rfl := Option.some.inj (hNext.symm.trans hMem')
        exact hB.step c
      · intro b' hMem' hSame
        obtain rfl := Option.some.inj (hNext.symm.trans hMem')
        rw [hStep.episodes]
        exact Nat.le_add_right_of_le (h.grown b hMem hSame)

/-- A report tells what has been counted since the one before. -/
theorem Agrees.report (h : Agrees s l) (now : Time) : Agrees (s.report now) l.tell where
  told := by
    have hDelta := h.untold
    unfold Watch.report Ledger.tell
    dsimp only
    rw [hDelta]
    split
    · rw [List.sum_append, h.told, List.sum_singleton]
    · rename_i hNone
      rw [h.told, Nat.eq_zero_of_not_pos hNone, Nat.add_zero]
  untold := generationDelta_self s.context
  older := by
    change s.context.generation ≤ s.generation
    unfold Watch.context
    split
    · exact Nat.le_refl _
    · exact Nat.zero_le _
  latched := h.latched
  grown b hMem _ := by
    change s.context.value ≤ b.capEpisodes
    have hPlayback : s.playback = some b := hMem
    rw [Watch.context, hPlayback]

/-- Whether a tick reports anything depends on the time alone. -/
theorem Agrees.tick (h : Agrees s l) (now : Time) : Agrees (s.step (.tick now)) (l.step s (.tick now)) := by
  simp only [Watch.step, Watch.tick, Ledger.step]
  split
  · exact h
  · exact h.report now

/-- Each happening keeps the log in agreement with what was counted. -/
theorem Agrees.step (h : Agrees s l) (happening : Happening φ) :
    Agrees (s.step happening) (l.step s happening) := by
  cases happening with
  | start => exact h.start
  | stop => exact h.stop
  | call c => exact h.call c
  | tick now => exact h.tick now

/-- So does every order of them. -/
theorem Agrees.run (h : Agrees s l) (happenings : List (Happening φ)) :
    Agrees (run s l happenings).1 (run s l happenings).2 := by
  induction happenings generalizing s l with
  | nil => exact h
  | cons happening happenings ih => exact ih (h.step happening)

/-- Over any number of playbacks, the log counts each time at which a buffer
was full once, in the first report that is due while its playback is there. -/
theorem cap_episodes_told (happenings : List (Happening φ)) :
    let r := run {} {} happenings
    r.1.reports.sum = r.2.told ∧ generationDelta r.1.prevJitterCap r.1.context = r.2.untold := by
  have hNobody : ∀ b, b ∉ ({} : Watch φ).playback := fun b hMem => by cases hMem
  have hStart : Agrees ({} : Watch φ) {} :=
    ⟨rfl, rfl, Nat.le_refl _, fun b hMem => absurd hMem (hNobody b), fun b hMem => absurd hMem (hNobody b)⟩
  have hRun := hStart.run happenings
  exact ⟨hRun.told, hRun.untold⟩

end NoCapKVM.App.CapReports
