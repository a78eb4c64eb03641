import NoCapKVM.EventLog.Samples
import Mathlib.Algebra.Order.Group.Int

/-! What `AudioLossWindow` and `BufferDepthWindow` have in common: their members, and the steps
of `record` around the eviction. Times are nanoseconds of the steady clock. -/
namespace NoCapKVM.App

open EventLog

structure SampleWindow (α : Type) where
  window : Int
  samples : List α := []
  firstSampleAt : Int := 0
  hasFirstSample : Bool := false
  ready : Bool := false

namespace SampleWindow

variable {α : Type} (time : α → Int)

/-- What both classes do for a new sample. The newest sample is
the last one. -/
def record (restart : SampleWindow α → SampleWindow α) (evict : Int → Int → List α → List α) (w : SampleWindow α)
    (a : α) : SampleWindow α :=
  let w := match w.samples.getLast? with
    | some last => if time a - time last > w.window then restart w else w
    | none => w
  let w := if w.hasFirstSample then w else { w with firstSampleAt := time a, hasFirstSample := true }
  let w := { w with samples := evict w.window (time a) (w.samples ++ [a]) }
  { w with ready := time a - w.firstSampleAt ≥ w.window }

def reset (w : SampleWindow α) : SampleWindow α :=
  { w with samples := [], hasFirstSample := false, ready := false }

def first? (w : SampleWindow α) : Option Int :=
  if w.hasFirstSample then some w.firstSampleAt else none

/-- The window knows the first and the newest sample of the history. -/
structure Tracks (window : Int) (samples : List α) (w : SampleWindow α) : Prop where
  sameWindow : w.window = window
  first : w.first? = samples.getLast?.map time
  newest : w.samples.getLast? = samples.head?
  ready : w.ready = true ↔ Spans time window samples

variable {time} {restart : SampleWindow α → SampleWindow α} {evict : Int → Int → List α → List α} {w : SampleWindow α}
  {window : Int} {log : List (SampleCall α)} {a : α}

theorem tracks_reset (h : w.window = window) : Tracks time window [] w.reset :=
  ⟨h, rfl, rfl, nofun, nofun⟩

variable (evict) in
/-- The two things that a new sample can do. -/
theorem record_cases
    (hRestart : ∀ w, restart w = { w with samples := [], hasFirstSample := false, ready := (restart w).ready })
    (h : Tracks time window (history time window log) w) :
    (history time window (.record a :: log) = [a] ∧
      w.record time restart evict a =
        { window := window, samples := evict window (time a) [a], firstSampleAt := time a, hasFirstSample := true,
          ready := time a - time a ≥ window }) ∨
    ∃ newest, (history time window log).head? = some newest ∧ time a - time newest ≤ window ∧
      history time window (.record a :: log) = a :: history time window log ∧
      w.record time restart evict a =
        { window := window, samples := evict window (time a) (w.samples ++ [a]), firstSampleAt := w.firstSampleAt,
          hasFirstSample := true, ready := time a - w.firstSampleAt ≥ window } := by
  obtain ⟨hWindow, hFirst, hNewest, -⟩ := h
  cases hHead : (history time window log).head? with
  | none =>
      have hEmpty := List.head?_eq_none_iff.mp hHead
      have hSamples : w.samples = [] := List.getLast?_eq_none_iff.mp (hNewest.trans hHead)
      have hHas : w.hasFirstSample = false := by
        rw [hEmpty, first?] at hFirst
        simpa using hFirst
      refine .inl ⟨history_first hEmpty, ?_⟩
      simp [record, hSamples, hHas, hWindow]
  | some newest =>
      have hLast := hNewest.trans hHead
      rw [history_record hHead]
      by_cases hGap : window < time a - time newest
      · refine .inl ⟨if_pos hGap, ?_⟩
        have hGap' : time a - time newest > w.window := by rwa [hWindow]
        simp only [record, hLast]
        rw [if_pos hGap', hRestart w]
        simp [hWindow]
      · have hHas : w.hasFirstSample = true := by
          obtain ⟨rest, hRest⟩ := List.head?_eq_some_iff.mp hHead
          rw [hRest, List.getLast?_eq_some_getLast (List.cons_ne_nil _ _), first?] at hFirst
          by_contra hHas
          rw [if_neg hHas] at hFirst
          cases hFirst
        refine .inr ⟨newest, rfl, le_of_not_gt hGap, if_neg hGap, ?_⟩
        have hGap' : ¬time a - time newest > w.window := by rwa [hWindow]
        simp only [record, hLast]
        rw [if_neg hGap', if_pos hHas]
        simp [hWindow, hHas]

theorem tracks_record
    (hRestart : ∀ w, restart w = { w with samples := [], hasFirstSample := false, ready := (restart w).ready })
    (hEvict : ∀ samples, (evict window (time a) (samples ++ [a])).getLast? = some a)
    (h : Tracks time window (history time window log) w) :
    Tracks time window (history time window (.record a :: log)) (w.record time restart evict a) := by
  rcases record_cases evict hRestart h with ⟨hHistory, hRecord⟩ | ⟨newest, hHead, -, hHistory, hRecord⟩
  · rw [hHistory, hRecord]
    refine ⟨rfl, rfl, hEvict [], ?_⟩
    rw [spans_ends rfl List.getLast?_singleton, decide_eq_true_eq]
  · rw [hHistory, hRecord]
    obtain ⟨first, hLast⟩ : ∃ first, (history time window log).getLast? = some first := by
      obtain ⟨rest, hRest⟩ := List.head?_eq_some_iff.mp hHead
      rw [hRest]
      exact ⟨_, List.getLast?_eq_some_getLast (List.cons_ne_nil newest rest)⟩
    have hLast' : (a :: history time window log).getLast? = some first := by
      rw [List.getLast?_cons, hLast]
      rfl
    have hFirst : w.firstSampleAt = time first := by
      have hFirst := h.first
      rw [hLast, first?] at hFirst
      split at hFirst
      · exact Option.some.inj hFirst
      · cases hFirst
    refine ⟨rfl, ?_, hEvict w.samples, ?_⟩
    · rw [hLast', hFirst]
      rfl
    · rw [spans_ends rfl hLast', decide_eq_true_eq, hFirst]

end SampleWindow
end NoCapKVM.App
