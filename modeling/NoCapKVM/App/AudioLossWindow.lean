import NoCapKVM.App.SampleWindow

/-! `audio_loss_window.h`: how many playouts were missed lately. -/
namespace NoCapKVM.App

open EventLog SampleWindow

namespace AudioLossWindow

structure Sample where
  time : Int
  misses : UInt64
  played : UInt64

end AudioLossWindow

abbrev AudioLossWindow := SampleWindow AudioLossWindow.Sample

namespace AudioLossWindow

def restart (w : AudioLossWindow) : AudioLossWindow :=
  { w with samples := [], hasFirstSample := false }

/-- `while (samples_.size() > 1 && now - samples_[1].at >= window_) samples_.pop_front();` -/
def evict (window now : Int) : List Sample → List Sample
  | front :: second :: rest =>
      if now - second.time ≥ window then evict window now (second :: rest) else front :: second :: rest
  | samples => samples

def record (w : AudioLossWindow) (s : Sample) : AudioLossWindow :=
  SampleWindow.record Sample.time restart evict w s

structure Reading where
  ready : Bool := false
  misses : UInt64 := 0
  attempts : UInt64 := 0

/-- `newest >= oldest ? newest - oldest : 0` -/
def clampedDiff (newest oldest : UInt64) : UInt64 :=
  if newest ≥ oldest then newest - oldest else 0

def reading (w : AudioLossWindow) : Reading :=
  match w.ready, w.samples.head?, w.samples.getLast? with
  | true, some oldest, some newest =>
      let misses := clampedDiff newest.misses oldest.misses
      { ready := true, misses := misses, attempts := misses + clampedDiff newest.played oldest.played }
  | ready, _, _ => { ready := ready }

def call (w : AudioLossWindow) : SampleCall Sample → AudioLossWindow
  | .record s => record w s
  | .reset => SampleWindow.reset w

/-- The window after the calls of a log, the newest of them first. -/
def after (window : Int) (log : List (SampleCall Sample)) : AudioLossWindow :=
  log.foldr (fun c w => call w c) { window := window }

variable {window : Int} {log : List (SampleCall Sample)} {s : Sample}

theorem restart_eq (w : AudioLossWindow) :
    restart w = { w with samples := [], hasFirstSample := false, ready := (restart w).ready } := rfl

theorem evict_concat (window : Int) (samples : List Sample) :
    (evict window s.time (samples ++ [s])).getLast? = some s := by
  generalize hDeque : samples ++ [s] = deque
  have hLast : deque.getLast? = some s := hDeque ▸ List.getLast?_concat
  clear hDeque
  fun_induction evict window s.time deque with
  | case1 front second rest _ ih => exact ih (by rwa [List.getLast?_cons_cons] at hLast)
  | case2 front second rest _ => exact hLast
  | case3 deque _ => exact hLast

/-- What the eviction leaves behind, and what it takes away. -/
theorem evict_spec {now : Int} {deque : List Sample} (hSorted : deque.Pairwise fun a b => a.time ≤ b.time) :
    ∃ gone, deque = gone ++ evict window now deque ∧ (∀ a ∈ (evict window now deque).tail, now - a.time < window) ∧
      (gone ≠ [] → ∃ front, (evict window now deque).head? = some front ∧ now - front.time ≥ window) := by
  fun_induction evict window now deque with
  | case1 front second rest hOld ih =>
      obtain ⟨gone, hSplit, hYoung, hFront⟩ := ih (List.pairwise_cons.mp hSorted).2
      refine ⟨front :: gone, congrArg (front :: ·) hSplit, hYoung, fun _ => ?_⟩
      cases gone with
      | nil => exact ⟨second, by rw [← List.nil_append (evict window now (second :: rest)), ← hSplit]; rfl, hOld⟩
      | cons a gone => exact hFront (List.cons_ne_nil a gone)
  | case2 front second rest hYoung =>
      refine ⟨[], rfl, ?_, fun h => absurd rfl h⟩
      intro a hMem
      have hLater : second.time ≤ a.time := by
        rcases List.mem_cons.mp hMem with rfl | hMem
        · exact le_refl _
        · exact (List.pairwise_cons.mp (List.pairwise_cons.mp hSorted).2).1 a hMem
      omega
  | case3 deque hShort =>
      refine ⟨[], rfl, ?_, fun h => absurd rfl h⟩
      intro a hMem
      match deque, hShort with
      | [], _ => cases hMem
      | [_], _ => cases hMem
      | b :: c :: rest, hShort => exact absurd rfl (hShort b c rest)

/-- Every sample behind the front is younger than the window, and so is the
front unless the history has older ones. -/
structure Anchored (window now : Int) (deque older : List Sample) : Prop where
  young : ∀ a ∈ deque.tail, now - a.time < window
  old : older ≠ [] → ∃ front, deque.head? = some front ∧ now - front.time ≥ window

/-- A new sample, and what the eviction makes of the deque. -/
theorem Anchored.evict {now : Int} {deque older : List Sample} (h : Anchored window now deque older)
    (hSorted : (deque ++ [s]).Pairwise fun a b => a.time ≤ b.time) (hNow : now ≤ s.time) :
    ∃ gone, deque ++ [s] = gone ++ evict window s.time (deque ++ [s]) ∧
      Anchored window s.time (AudioLossWindow.evict window s.time (deque ++ [s])) (gone.reverse ++ older) := by
  obtain ⟨gone, hSplit, hYoung, hFront⟩ := @evict_spec window s.time _ hSorted
  refine ⟨gone, hSplit, hYoung, fun hOlder => ?_⟩
  by_cases hGone : gone = []
  · subst hGone
    obtain ⟨front, hHead, hAge⟩ := h.old (by simpa using hOlder)
    refine ⟨front, ?_, by omega⟩
    rw [← List.nil_append (AudioLossWindow.evict _ _ _), ← hSplit, List.head?_append, hHead]
    rfl
  · exact hFront hGone

/-- A run: the window tracks the history, and its deque is the
newest part of it. -/
theorem after_spec (hOrdered : Ordered Sample.time log) :
    Tracks Sample.time window (history Sample.time window log) (after window log) ∧
      ∃ older, history Sample.time window log = (after window log).samples.reverse ++ older ∧
        ∀ newest, (history Sample.time window log).head? = some newest →
          Anchored window newest.time (after window log).samples older := by
  induction log with
  | nil => exact ⟨⟨rfl, rfl, rfl, nofun, nofun⟩, [], rfl, nofun⟩
  | cons c log ih =>
      obtain ⟨hTracks, older, hSplit, hAnchored⟩ := ih hOrdered.tail
      cases c with
      | reset => exact ⟨tracks_reset hTracks.sameWindow, [], rfl, nofun⟩
      | record s =>
          refine ⟨tracks_record restart_eq (evict_concat window) hTracks, ?_⟩
          have hAfter : after window (.record s :: log) =
              SampleWindow.record Sample.time restart evict (after window log) s := rfl
          have hSorted : (history Sample.time window (.record s :: log)).Pairwise fun a b => b.time ≤ a.time :=
            hOrdered.history
          rcases record_cases evict restart_eq hTracks with
            ⟨hHistory, hRecord⟩ | ⟨newest, hHead, -, hHistory, hRecord⟩
          · rw [hHistory, hAfter, hRecord]
            refine ⟨[], rfl, fun newest _ => ⟨nofun, fun h => absurd rfl h⟩⟩
          · rw [hHistory, hSplit] at hSorted
            have hNow : newest.time ≤ s.time :=
              (List.pairwise_cons.mp hSorted).1 newest (hSplit ▸ List.mem_of_mem_head? hHead)
            have hDeque : ((after window log).samples ++ [s]).Pairwise fun a b => a.time ≤ b.time := by
              rw [← List.pairwise_reverse, List.reverse_append]
              exact (List.pairwise_append.mp hSorted).1
            obtain ⟨gone, hGone, hKept⟩ := (hAnchored newest hHead).evict hDeque hNow
            rw [hHistory, hAfter, hRecord]
            refine ⟨gone.reverse ++ older, ?_, ?_⟩
            · have hReverse := congrArg List.reverse hGone
              rw [List.reverse_append, List.reverse_append] at hReverse
              rw [hSplit, ← List.append_assoc, ← hReverse]
              rfl
            · intro newest' hNewest'
              cases hNewest'
              exact hKept

/-- The front of the deque is the newest sample of the history that is as old
as the window. -/
theorem find?_front {newest : Sample} {samples deque older : List Sample} (hSplit : samples = deque.reverse ++ older)
    (hNewest : samples.head? = some newest) (hSorted : samples.Pairwise fun a b => b.time ≤ a.time)
    (hSpans : Spans Sample.time window samples) (h : Anchored window newest.time deque older)
    (hDeque : deque.getLast? = some newest) :
    samples.find? (fun a => window ≤ newest.time - a.time) = deque.head? := by
  obtain ⟨a, hMem, hAge⟩ := (spans_iff hNewest hSorted).mp hSpans
  cases deque with
  | nil => cases hDeque
  | cons front tail =>
      have hTail : tail.reverse.find? (fun a => window ≤ newest.time - a.time) = none := by
        rw [List.find?_eq_none]
        intro b hB hOld
        have hYoung := h.young b (List.mem_reverse.mp hB)
        have hOld' := of_decide_eq_true hOld
        omega
      have hFront : window ≤ newest.time - front.time := by
        by_contra hYoung
        have hNone : older = [] := by
          by_contra hOlder
          obtain ⟨front', hHead, hOld⟩ := h.old hOlder
          cases hHead
          exact hYoung hOld
        rw [hSplit, hNone, List.append_nil, List.mem_reverse] at hMem
        rcases List.mem_cons.mp hMem with rfl | hMem
        · exact hYoung hAge
        · have hYounger := h.young a hMem
          omega
      rw [hSplit, List.reverse_cons, List.append_assoc, List.find?_append, hTail, Option.none_or, List.singleton_append]
      simp [hFront]

theorem foldl_call (window : Int) (calls : List (SampleCall Sample)) :
    calls.foldl call { window := window } = after window calls.reverse :=
  List.foldl_eq_foldr_reverse

theorem reading_ready {w : AudioLossWindow} : w.reading.ready = w.ready := by
  unfold reading
  split
  · rename_i hReady _ _
    exact hReady.symm
  · rfl

/-- A reading is there once a whole window has been sampled, and it compares
the newest sample with the newest one that is as old as the window. -/
theorem reading_correct (window : Int) (hWindow : 0 < window) (calls : List (SampleCall Sample))
    (hOrdered : Ordered Sample.time calls.reverse) :
    let w : AudioLossWindow := calls.foldl call { window := window }
    let samples := history Sample.time window calls.reverse
    (w.reading.ready = true ↔ Spans Sample.time window samples) ∧
      (w.reading.ready = true → ∃ newest anchor, samples.head? = some newest ∧
        samples.find? (fun a => window ≤ newest.time - a.time) = some anchor ∧
        newest.time - anchor.time < 2 * window ∧
        w.reading.misses = clampedDiff newest.misses anchor.misses ∧
        w.reading.attempts =
          clampedDiff newest.misses anchor.misses + clampedDiff newest.played anchor.played) := by
  intro w samples
  obtain ⟨hTracks, older, hSplit, hAnchored⟩ := @after_spec window calls.reverse hOrdered
  rw [← foldl_call] at hTracks hSplit hAnchored
  refine ⟨by rw [reading_ready]; exact hTracks.ready, ?_⟩
  rw [reading_ready]
  intro hReady
  have hSpans := hTracks.ready.mp hReady
  obtain ⟨newest, first, hNewest, -⟩ := id hSpans
  have hLast : w.samples.getLast? = some newest := hTracks.newest.trans hNewest
  have hFind := find?_front hSplit hNewest hOrdered.history hSpans (hAnchored newest hNewest) hLast
  obtain ⟨anchor, hFront⟩ : ∃ anchor, w.samples.head? = some anchor := by
    cases hDeque : w.samples with
    | nil =>
        rw [hDeque] at hLast
        cases hLast
    | cons front tail => exact ⟨front, rfl⟩
  rw [hFront] at hFind
  have hAge := age_anchor_lt hWindow hNewest (isChain_unbroken _) hFind
  refine ⟨newest, anchor, hNewest, hFind, by omega, ?_, ?_⟩
  · rw [reading, hReady, hFront, hLast]
  · rw [reading, hReady, hFront, hLast]

/-- Two samples that are exactly the window apart. -/
theorem reading_correct_restarted :
    let calls : List (SampleCall Sample) := [.record ⟨0, 100, 900⟩, .reset, .record ⟨61, 5, 5⟩, .record ⟨121, 15, 25⟩]
    ∃ newest anchor, (history Sample.time 60 calls.reverse).head? = some newest ∧
      (history Sample.time 60 calls.reverse).find? (fun a => 60 ≤ newest.time - a.time) = some anchor ∧
      newest.time - anchor.time < 2 * 60 :=
  let calls : List (SampleCall Sample) := [.record ⟨0, 100, 900⟩, .reset, .record ⟨61, 5, 5⟩, .record ⟨121, 15, 25⟩]
  have hReading := (reading_correct 60 (by decide) calls (by unfold Ordered; decide)).2 (by decide)
  let ⟨newest, anchor, hNewest, hAnchor, hAge, _⟩ := hReading
  ⟨newest, anchor, hNewest, hAnchor, hAge⟩

end AudioLossWindow
end NoCapKVM.App
