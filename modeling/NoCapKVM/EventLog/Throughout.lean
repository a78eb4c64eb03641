import Mathlib.Data.List.Basic

/-! What holds at every step of a log that moves a state. -/
namespace EventLog

variable {σ α : Type} {step : σ → α → σ} {P : σ → Prop}

/-- `P` holds of the state before the events, between them and after them. -/
def Throughout (step : σ → α → σ) (P : σ → Prop) (s : σ) : List α → Prop
  | [] => P s
  | a :: log => P s ∧ Throughout step P (step s a) log

@[simp] theorem throughout_nil (s : σ) : Throughout step P s [] ↔ P s := .rfl

@[simp] theorem throughout_cons (s : σ) (a : α) (log : List α) :
    Throughout step P s (a :: log) ↔ P s ∧ Throughout step P (step s a) log := .rfl

theorem Throughout.first {s : σ} {log : List α} (h : Throughout step P s log) : P s := by
  cases log with
  | nil => exact h
  | cons a log => exact h.1

theorem Throughout.last {s : σ} {log : List α} (h : Throughout step P s log) : P (log.foldl step s) := by
  induction log generalizing s with
  | nil => exact h
  | cons a log ih => exact ih h.2

theorem throughout_append (s : σ) (log more : List α) :
    Throughout step P s (log ++ more) ↔ Throughout step P s log ∧ Throughout step P (log.foldl step s) more := by
  induction log generalizing s with
  | nil => exact ⟨fun h => ⟨h.first, h⟩, And.right⟩
  | cons a log ih =>
      rw [List.cons_append, throughout_cons, throughout_cons, ih, and_assoc]
      rfl

end EventLog
