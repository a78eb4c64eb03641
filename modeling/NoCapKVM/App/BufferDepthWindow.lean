import NoCapKVM.App.SampleWindow
import NoCapKVM.Container.FoldExtrema

/-! `buffer_depth_window.h`: the largest buffer depth that was sampled lately. -/
namespace NoCapKVM.App

open EventLog SampleWindow

namespace BufferDepthWindow

/-- `at` of the source is `time`. -/
structure Sample where
  time : Int
  depth : Nat

end BufferDepthWindow

abbrev BufferDepthWindow := SampleWindow BufferDepthWindow.Sample

namespace BufferDepthWindow

/-- A gap also clears `ready_`, which the end of `record` sets again. -/
def restart (w : BufferDepthWindow) : BufferDepthWindow :=
  { w with samples := [], hasFirstSample := false, ready := false }

/-- `while (!samples_.empty() && now - samples_.front().at > window_) samples_.pop_front();` -/
def evict (window now : Int) (samples : List Sample) : List Sample :=
  samples.dropWhile fun s => now - s.time > window

def record (w : BufferDepthWindow) (s : Sample) : BufferDepthWindow :=
  SampleWindow.record Sample.time restart evict w s

def maximum (w : BufferDepthWindow) : Nat :=
  w.samples.foldl (fun result sample => max result sample.depth) 0

def call (w : BufferDepthWindow) : SampleCall Sample → BufferDepthWindow
  | .record s => record w s
  | .reset => SampleWindow.reset w

/-- The window after the calls of a log, the newest of them first. -/
def after (window : Int) (log : List (SampleCall Sample)) : BufferDepthWindow :=
  log.foldr (fun c w => call w c) { window := window }

/-- The samples since the last reset that are not older than the window when
the newest of them is taken. -/
def inWindow (window : Int) (log : List (SampleCall Sample)) : List Sample :=
  match sinceReset log with
  | [] => []
  | newest :: rest => (newest :: rest).filter fun s => newest.time - s.time ≤ window

variable {window : Int} {log : List (SampleCall Sample)} {s : Sample}

theorem restart_eq (w : BufferDepthWindow) :
    restart w = { w with samples := [], hasFirstSample := false, ready := (restart w).ready } := rfl

theorem evict_concat (hWindow : 0 < window) (samples : List Sample) :
    (evict window s.time (samples ++ [s])).getLast? = some s := by
  have hStays : ¬decide (s.time - s.time > window) = true := by
    simp only [decide_eq_true_eq]
    omega
  rw [evict, List.dropWhile_append]
  split
  · rw [List.dropWhile_cons, if_neg hStays, List.getLast?_singleton]
  · rw [List.getLast?_append, List.getLast?_singleton, Option.some_or]

/-- In a deque that is ordered by time the old samples are at the front. -/
theorem evict_eq_filter {now : Int} {samples : List Sample} (h : samples.Pairwise fun a b => a.time ≤ b.time) :
    evict window now samples = samples.filter fun s => now - s.time ≤ window := by
  induction samples with
  | nil => rfl
  | cons s samples ih =>
      obtain ⟨hFirst, hRest⟩ := List.pairwise_cons.mp h
      by_cases hOld : now - s.time > window
      · have hGone : ¬decide (now - s.time ≤ window) = true := by
          simp only [decide_eq_true_eq]
          omega
        rw [List.filter_cons, if_neg hGone, ← ih hRest, evict, List.dropWhile_cons, if_pos (decide_eq_true hOld)]
        rfl
      · have hAll : ∀ a ∈ s :: samples, decide (now - a.time ≤ window) = true := by
          intro a hMem
          rcases List.mem_cons.mp hMem with rfl | hMem
          · exact decide_eq_true (Int.not_lt.mp hOld)
          · have hLater := hFirst a hMem
            simp only [decide_eq_true_eq]
            omega
        rw [List.filter_eq_self.mpr hAll, evict, List.dropWhile_cons, if_neg (mt of_decide_eq_true hOld)]

theorem inWindow_record : inWindow window (.record s :: log) =
    (s :: sinceReset log).filter fun a => s.time - a.time ≤ window := rfl

theorem inWindow_sublist (log : List (SampleCall Sample)) : (inWindow window log).Sublist (sinceReset log) := by
  unfold inWindow
  split
  · exact List.nil_sublist _
  · rename_i hSince
    rw [hSince]
    exact List.filter_sublist

/-- What was too old for an earlier sample is too old for a later one. -/
theorem filter_inWindow {newest : Sample} (hNewest : (sinceReset log).head? = some newest) (hLater : newest.time ≤ s.time) :
    (inWindow window log).filter (fun a => s.time - a.time ≤ window) =
      (sinceReset log).filter fun a => s.time - a.time ≤ window := by
  obtain ⟨rest, hRest⟩ := List.head?_eq_some_iff.mp hNewest
  simp only [inWindow, hRest]
  rw [List.filter_filter]
  apply List.filter_congr
  intro a _
  rw [Bool.and_eq_left_iff_imp]
  intro hAge
  have hAge' := of_decide_eq_true hAge
  simp only [decide_eq_true_eq]
  omega

/-- A run: the window tracks the history, and its deque holds what is
in the window. -/
theorem after_spec (hWindow : 0 < window) (hOrdered : Ordered Sample.time log) :
    Tracks Sample.time window (history Sample.time window log) (after window log) ∧
      (after window log).samples.reverse = inWindow window log := by
  induction log with
  | nil => exact ⟨⟨rfl, rfl, rfl, nofun, nofun⟩, rfl⟩
  | cons c log ih =>
      obtain ⟨hTracks, hSamples⟩ := ih hOrdered.tail
      cases c with
      | reset => exact ⟨tracks_reset hTracks.sameWindow, rfl⟩
      | record s =>
          refine ⟨tracks_record restart_eq (evict_concat hWindow) hTracks, ?_⟩
          have hSorted := hOrdered.sinceReset
          simp only [sinceReset, List.pairwise_cons] at hSorted
          obtain ⟨hLater, hSorted⟩ := hSorted
          have hStays : decide (s.time - s.time ≤ window) = true := by
            simp only [decide_eq_true_eq]
            omega
          rw [inWindow_record, List.filter_cons, if_pos hStays]
          have hAfter : after window (.record s :: log) =
              SampleWindow.record Sample.time restart evict (after window log) s := rfl
          rcases record_cases evict restart_eq hTracks with ⟨hHistory, hRecord⟩ | ⟨newest, hHead, -, -, hRecord⟩
          · -- everything before the gap is too old
            have hNone : (sinceReset log).filter (fun a => s.time - a.time ≤ window) = [] := by
              cases hSince : sinceReset log with
              | nil => rfl
              | cons newest rest =>
                  have hGap : window < s.time - newest.time := gap_of_history hHistory (by rw [hSince]; rfl)
                  rw [hSince] at hSorted
                  rw [List.filter_eq_nil_iff]
                  intro a hMem hAge
                  have hOlder : a.time ≤ newest.time := by
                    rcases List.mem_cons.mp hMem with rfl | hMem
                    · exact le_refl _
                    · exact (List.pairwise_cons.mp hSorted).1 a hMem
                  have hAge' := of_decide_eq_true hAge
                  omega
            rw [hAfter, hRecord, hNone]
            rw [evict_eq_filter (List.pairwise_singleton _ s), List.filter_cons, if_pos hStays]
            rfl
          · have hDeque : ((after window log).samples ++ [s]).Pairwise fun a b => a.time ≤ b.time := by
              rw [← List.pairwise_reverse, List.reverse_append, hSamples]
              refine List.pairwise_cons.mpr ⟨fun a hMem => ?_, hSorted.sublist (inWindow_sublist log)⟩
              exact hLater a ((inWindow_sublist log).subset hMem)
            rw [head?_history] at hHead
            rw [hAfter, hRecord, evict_eq_filter hDeque, ← List.filter_reverse, List.reverse_append, hSamples]
            rw [List.reverse_singleton, List.singleton_append, List.filter_cons, if_pos hStays,
              filter_inWindow hHead (hLater newest (List.mem_of_mem_head? hHead))]

theorem maximum_eq (w : BufferDepthWindow) : maximum w = (w.samples.map Sample.depth).foldl max 0 :=
  List.foldl_map.symm

theorem foldl_call (window : Int) (calls : List (SampleCall Sample)) :
    calls.foldl call { window := window } = after window calls.reverse :=
  List.foldl_eq_foldr_reverse

/-- The maximum is that of the samples in the window, and it is ready once a
whole window has been sampled. -/
theorem maximum_and_ready (window : Int) (hWindow : 0 < window) (calls : List (SampleCall Sample))
    (hOrdered : Ordered Sample.time calls.reverse) :
    let w : BufferDepthWindow := calls.foldl call { window := window }
    let recent := inWindow window calls.reverse
    (recent = [] → maximum w = 0) ∧ (recent ≠ [] → IsGreatest {d | d ∈ recent.map Sample.depth} (maximum w)) ∧
      (w.ready = true ↔ Spans Sample.time window (history Sample.time window calls.reverse)) := by
  intro w recent
  obtain ⟨hTracks, hSamples⟩ := after_spec hWindow hOrdered
  rw [← foldl_call] at hTracks hSamples
  have hRecent : recent = w.samples.reverse := hSamples.symm
  refine ⟨?_, ?_, hTracks.ready⟩
  · intro hNone
    have hNone' : w.samples = [] := List.reverse_eq_nil_iff.mp (hRecent.symm.trans hNone)
    rw [maximum_eq, hNone']
    rfl
  · intro hSome
    have hSome' : w.samples.map Sample.depth ≠ [] := by
      rw [hRecent, ne_eq, List.reverse_eq_nil_iff] at hSome
      exact fun hNone => hSome (List.map_eq_nil_iff.mp hNone)
    have hGreatest := List.foldl_max_isGreatest hSome' (fun a _ => Nat.zero_le a)
    rw [maximum_eq, hRecent, List.map_reverse]
    simpa only [List.mem_reverse] using hGreatest

theorem maximum_and_ready_boundary :
    let calls : List (SampleCall Sample) := [.record ⟨0, 8⟩, .record ⟨5, 24⟩, .record ⟨10, 12⟩, .record ⟨16, 7⟩]
    IsGreatest {d | d ∈ (inWindow 10 calls.reverse).map Sample.depth}
      (maximum (calls.foldl call { window := 10 })) :=
  (maximum_and_ready 10 (by decide) [.record ⟨0, 8⟩, .record ⟨5, 24⟩, .record ⟨10, 12⟩, .record ⟨16, 7⟩]
    (by unfold Ordered; decide)).2.1 (by decide)

end BufferDepthWindow
end NoCapKVM.App
