import Mathlib.Algebra.Order.Group.Basic
import Mathlib.Data.List.Chain

/-! Samples that are taken one after the other, with resets in between. Logs of them have the
newest call first. -/
namespace EventLog

inductive SampleCall (α : Type) where
  | record (a : α)
  | reset

variable {α T : Type}

def SampleCall.sample? : SampleCall α → Option α
  | record a => some a
  | reset => none

/-- The samples since the last reset, the newest first. -/
def sinceReset : List (SampleCall α) → List α
  | .record a :: log => a :: sinceReset log
  | _ => []

section Definitions

variable [LinearOrder T] [Sub T] (time : α → T) (window : T)

/-- The samples since the last gap that is longer than the window. -/
def unbroken : List α → List α
  | a :: b :: rest => if window < time a - time b then [a] else a :: unbroken (b :: rest)
  | samples => samples

/-- The samples since the last reset or the last gap that is longer
than the window. -/
def history (log : List (SampleCall α)) : List α :=
  unbroken time window (sinceReset log)

/-- Time does not run backwards, not even over a reset. -/
def Ordered (log : List (SampleCall α)) : Prop :=
  (log.filterMap SampleCall.sample?).Pairwise fun a b => time b ≤ time a

/-- The newest of the samples is at least the window later than
the first one. -/
def Spans (samples : List α) : Prop :=
  ∃ newest first, samples.head? = some newest ∧ samples.getLast? = some first ∧ window ≤ time newest - time first

end Definitions

section Order

variable [LinearOrder T] {time : α → T} {log : List (SampleCall α)}

/-- An ordered log is ordered without its newest call. -/
theorem Ordered.tail {c : SampleCall α} (h : Ordered time (c :: log)) : Ordered time log := by
  cases c with
  | record a => exact (List.pairwise_cons.mp h).2
  | reset => exact h

/-- The samples since the last reset are some of all samples, in
their order. -/
theorem sinceReset_sublist (log : List (SampleCall α)) :
    (sinceReset log).Sublist (log.filterMap SampleCall.sample?) := by
  induction log with
  | nil => exact .slnil
  | cons c log ih =>
      cases c with
      | record a => exact ih.cons_cons a
      | reset => exact List.nil_sublist _

/-- So they are ordered in time. -/
theorem Ordered.sinceReset (h : Ordered time log) : (sinceReset log).Pairwise fun a b => time b ≤ time a :=
  List.Pairwise.sublist (sinceReset_sublist log) h

end Order

section Calls

variable [LinearOrder T] [Sub T] {time : α → T} {window : T} {a : α} {log : List (SampleCall α)}

@[simp] theorem history_nil : history time window ([] : List (SampleCall α)) = [] := rfl

@[simp] theorem history_reset : history time window (.reset :: log) = [] := rfl

/-- Whether samples span the window is seen from the newest and the
oldest of them. -/
theorem spans_ends {samples : List α} {newest first : α} (hNewest : samples.head? = some newest)
    (hFirst : samples.getLast? = some first) : Spans time window samples ↔ window ≤ time newest - time first := by
  constructor
  · rintro ⟨newest', first', hNewest', hFirst', hAge⟩
    rw [hNewest] at hNewest'
    rw [hFirst] at hFirst'
    cases hNewest'
    cases hFirst'
    exact hAge
  · exact fun hAge => ⟨newest, first, hNewest, hFirst, hAge⟩

/-- The newest sample is never behind a gap. -/
theorem head?_unbroken (samples : List α) : (unbroken time window samples).head? = samples.head? := by
  unfold unbroken
  split
  · split <;> rfl
  · rfl

/-- So the newest sample since the reset is the newest of the history. -/
theorem head?_history : (history time window log).head? = (sinceReset log).head? :=
  head?_unbroken _

/-- A sample behind nothing is the whole history. -/
theorem history_first (h : history time window log = []) : history time window (.record a :: log) = [a] := by
  have hHead : (history time window log).head? = (sinceReset log).head? := head?_history
  rw [h] at hHead
  have hNone : sinceReset log = [] := List.head?_eq_none_iff.mp hHead.symm
  simp only [history, sinceReset, hNone, unbroken]

/-- A sample adds itself to the history, or begins a new one behind a gap. -/
theorem history_record {b : α} (h : (history time window log).head? = some b) :
    history time window (.record a :: log) =
      if window < time a - time b then [a] else a :: history time window log := by
  rw [head?_history] at h
  obtain ⟨rest, hRest⟩ := List.head?_eq_some_iff.mp h
  simp only [history, sinceReset, hRest, unbroken]

/-- Where a history starts anew, there was a gap or nothing at all. -/
theorem gap_of_history {b : α} (h : history time window (.record a :: log) = [a]) (hB : (sinceReset log).head? = some b) :
    window < time a - time b := by
  have hHead : (history time window log).head? = some b := head?_history.trans hB
  rw [history_record hHead] at h
  split at h
  · assumption
  · have hNone := (List.cons.inj h).2
    rw [hNone] at hHead
    cases hHead

/-- The samples behind the last gap are the newest ones. -/
theorem prefix_unbroken (samples : List α) : unbroken time window samples <+: samples := by
  fun_induction unbroken time window samples with
  | case1 a b rest => exact ⟨b :: rest, rfl⟩
  | case2 a b rest _ ih => exact (List.prefix_cons_inj a).mpr ih
  | case3 samples => exact List.prefix_refl _

/-- So the history is ordered in time. -/
theorem Ordered.history (h : Ordered time log) :
    (history time window log).Pairwise fun a b => time b ≤ time a :=
  h.sinceReset.sublist (prefix_unbroken _).sublist

/-- Between neighbours there is no gap longer than the window. -/
theorem isChain_unbroken (samples : List α) :
    (unbroken time window samples).IsChain fun a b => time a - time b ≤ window := by
  fun_induction unbroken time window samples with
  | case1 a b rest => exact .singleton a
  | case2 a b rest hGap ih =>
      refine List.isChain_cons.mpr ⟨?_, ih⟩
      intro c hC
      rw [head?_unbroken] at hC
      cases hC
      exact le_of_not_gt hGap
  | case3 samples hShort =>
      match samples, hShort with
      | [], _ => exact .nil
      | [a], _ => exact .singleton a
      | a :: b :: rest, hShort => exact absurd rfl (hShort a b rest)

end Calls

section Ages

variable [AddCommGroup T] [LinearOrder T] [IsOrderedAddMonoid T] {time : α → T} {window : T}

/-- Where the samples span the window, one of them is as old as that. -/
theorem spans_iff {newest : α} {samples : List α} (hNewest : samples.head? = some newest)
    (hOrdered : samples.Pairwise fun a b => time b ≤ time a) :
    Spans time window samples ↔ ∃ a ∈ samples, window ≤ time newest - time a := by
  constructor
  · rintro ⟨newest', first, hNewest', hFirst, hAge⟩
    rw [hNewest] at hNewest'
    cases hNewest'
    exact ⟨first, List.mem_of_getLast? hFirst, hAge⟩
  · rintro ⟨a, hMem, hAge⟩
    rcases List.eq_nil_or_concat samples with rfl | ⟨before, first, rfl⟩
    · cases hMem
    · rw [List.concat_eq_append] at hMem hOrdered hNewest ⊢
      have hOldest : time first ≤ time a := by
        rcases List.mem_append.mp hMem with hBefore | hFirst
        · exact (List.pairwise_append.mp hOrdered).2.2 a hBefore first List.mem_cons_self
        · exact (List.mem_singleton.mp hFirst).symm ▸ le_refl _
      refine ⟨newest, first, hNewest, List.getLast?_concat, hAge.trans (sub_le_sub_left hOldest _)⟩

/-- The newest sample as old as the window is less than twice as old: the one
after it is younger, and not more than the window later. -/
theorem age_anchor_lt {newest anchor : α} {samples : List α} (hWindow : 0 < window)
    (hNewest : samples.head? = some newest) (hChain : samples.IsChain fun a b => time a - time b ≤ window)
    (hAnchor : samples.find? (fun a => window ≤ time newest - time a) = some anchor) :
    time newest - time anchor < window + window := by
  obtain ⟨hOld, before, after, rfl, hYoung⟩ := List.find?_eq_some_iff_append.mp hAnchor
  rcases List.eq_nil_or_concat before with rfl | ⟨before, next, rfl⟩
  · cases hNewest
    simp only [sub_self, decide_eq_true_eq] at hOld
    exact absurd hWindow (not_lt_of_ge hOld)
  · have hNext : time newest - time next < window := by
      simpa using hYoung next (by simp)
    have hGap : time next - time anchor ≤ window := by
      rw [List.concat_eq_append, List.append_assoc] at hChain
      exact (List.isChain_append.mp hChain).2.1.rel
    calc
      time newest - time anchor = (time newest - time next) + (time next - time anchor) := by rw [sub_add_sub_cancel]
      _ < window + window := add_lt_add_of_lt_of_le hNext hGap

end Ages
end EventLog
