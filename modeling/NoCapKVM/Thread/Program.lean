import Mathlib.Logic.Relation

/-! Programs of one thread as trees of atomic operations. What the other
threads and the network do is not part of a program. An operation is answered
by whoever runs it, and every answer of its type has a continuation. -/
namespace Thread

/-- `ret` ends the thread. `op` performs one atomic operation and continues
with its answer. `loop` runs its body from a loop state until the body ends
with `Sum.inr`. No bound on the number of rounds is built in. -/
inductive Prog (Op : Type) (Ans : Op → Type) : Type → Type 1 where
  | ret {α : Type} (a : α) : Prog Op Ans α
  | op {α : Type} (o : Op) (next : Ans o → Prog Op Ans α) : Prog Op Ans α
  | loop {α σ β : Type} (x : σ) (body : σ → Prog Op Ans (σ ⊕ β))
      (next : β → Prog Op Ans α) : Prog Op Ans α

namespace Prog

variable {Op : Type} {Ans : Op → Type} {α β γ σ : Type}

def bind : Prog Op Ans α → (α → Prog Op Ans β) → Prog Op Ans β
  | ret a, f => f a
  | op o next, f => op o fun r => (next r).bind f
  | loop x body next, f => loop x body fun b => (next b).bind f

instance : Monad (Prog Op Ans) where
  pure := ret
  bind := bind

/-- One operation, with its answer as the result. -/
def perform (o : Op) : Prog Op Ans (Ans o) :=
  op o ret

/-- A loop whose exit value is the result. -/
def iterate (x : σ) (body : σ → Prog Op Ans (σ ⊕ β)) : Prog Op Ans β :=
  loop x body ret

@[simp] theorem pure_def (a : α) : (pure a : Prog Op Ans α) = ret a := rfl

@[simp] theorem bind_def (p : Prog Op Ans α) (f : α → Prog Op Ans β) : p >>= f = p.bind f := rfl

@[simp] theorem ret_bind (a : α) (f : α → Prog Op Ans β) :
    (ret a : Prog Op Ans α).bind f = f a := rfl

@[simp] theorem op_bind (o : Op) (next : Ans o → Prog Op Ans α) (f : α → Prog Op Ans β) :
    (op o next).bind f = op o fun r => (next r).bind f := rfl

@[simp] theorem perform_bind (o : Op) (f : Ans o → Prog Op Ans β) :
    (perform o : Prog Op Ans (Ans o)).bind f = op o f := rfl

@[simp] theorem iterate_bind (x : σ) (body : σ → Prog Op Ans (σ ⊕ β)) (f : β → Prog Op Ans γ) :
    (iterate x body).bind f = loop x body f := rfl

/-- Programs in sequence may be bracketed in any way. -/
theorem bind_assoc (p : Prog Op Ans α) (f : α → Prog Op Ans β) (g : β → Prog Op Ans γ) :
    (p.bind f).bind g = p.bind fun a => (f a).bind g := by
  induction p with
  | ret a => rfl
  | op o next ih => simp only [bind, ih]
  | loop x body next _ ih => simp only [bind, ih]

/-- One round of a loop: the body, and then the loop again or its exit. -/
def unroll (x : σ) (body : σ → Prog Op Ans (σ ⊕ β)) (next : β → Prog Op Ans α) :
    Prog Op Ans α :=
  (body x).bind (Sum.elim (fun y => loop y body next) next)

/-- What follows a loop follows its rounds. -/
theorem unroll_bind (x : σ) (body : σ → Prog Op Ans (σ ⊕ β)) (next : β → Prog Op Ans α)
    (f : α → Prog Op Ans γ) :
    (unroll x body next).bind f = unroll x body fun b => (next b).bind f := by
  rw [unroll, bind_assoc, unroll]
  congr 1
  funext e
  cases e <;> rfl

/-- Replace each operation by a program over another set of operations. -/
def interp {Op' : Type} {Ans' : Op' → Type} (f : (o : Op) → Prog Op' Ans' (Ans o)) :
    {α : Type} → Prog Op Ans α → Prog Op' Ans' α
  | _, ret a => ret a
  | _, op o next => (f o).bind fun r => (next r).interp f
  | _, loop x body next => loop x (fun y => (body y).interp f) fun b => (next b).interp f

/-- Every operation that the program can ever perform satisfies `P`. -/
def Uses (P : Op → Prop) : {α : Type} → Prog Op Ans α → Prop
  | _, ret _ => True
  | _, op o next => P o ∧ ∀ r, (next r).Uses P
  | _, loop _ body next => (∀ y, (body y).Uses P) ∧ ∀ b, (next b).Uses P

@[simp] theorem uses_ret (P : Op → Prop) (a : α) : (ret a : Prog Op Ans α).Uses P := trivial

@[simp] theorem uses_op (P : Op → Prop) (o : Op) (next : Ans o → Prog Op Ans α) :
    (op o next).Uses P ↔ P o ∧ ∀ r, (next r).Uses P := Iff.rfl

/-- A loop uses what its body uses, in each round, and what comes after it. -/
@[simp] theorem uses_loop (P : Op → Prop) (x : σ) (body : σ → Prog Op Ans (σ ⊕ β))
    (next : β → Prog Op Ans α) :
    (loop x body next).Uses P ↔ (∀ y, (body y).Uses P) ∧ ∀ b, (next b).Uses P := Iff.rfl

@[simp] theorem uses_perform (P : Op → Prop) (o : Op) :
    (perform o : Prog Op Ans (Ans o)).Uses P ↔ P o := by
  simp [perform]

/-- A weaker condition on the operations holds as well. -/
theorem Uses.mono {P R : Op → Prop} {p : Prog Op Ans α} (hp : p.Uses P) (h : ∀ o, P o → R o) :
    p.Uses R := by
  induction p with
  | ret a => exact trivial
  | op o next ih => exact ⟨h o hp.1, fun r => ih r (hp.2 r)⟩
  | loop x body next ihBody ihNext =>
      exact ⟨fun y => ihBody y (hp.1 y), fun b => ihNext b (hp.2 b)⟩

/-- Two conditions on the operations of a program are one. -/
theorem Uses.and {P R : Op → Prop} {p : Prog Op Ans α} (hp : p.Uses P) (hr : p.Uses R) :
    p.Uses fun o => P o ∧ R o := by
  induction p with
  | ret a => exact trivial
  | op o next ih => exact ⟨⟨hp.1, hr.1⟩, fun r => ih r (hp.2 r) (hr.2 r)⟩
  | loop x body next ihBody ihNext =>
      exact ⟨fun y => ihBody y (hp.1 y) (hr.1 y), fun b => ihNext b (hp.2 b) (hr.2 b)⟩

/-- Every program uses some operations. -/
theorem uses_all (p : Prog Op Ans α) : p.Uses fun _ => True := by
  induction p with
  | ret a => exact trivial
  | op o next ih => exact ⟨trivial, ih⟩
  | loop x body next ihBody ihNext => exact ⟨ihBody, ihNext⟩

/-- A sequence uses what its parts use. -/
theorem Uses.bind {P : Op → Prop} {p : Prog Op Ans α} {f : α → Prog Op Ans β}
    (hp : p.Uses P) (hf : ∀ a, (f a).Uses P) : (p.bind f).Uses P := by
  induction p with
  | ret a => exact hf a
  | op o next ih => exact ⟨hp.1, fun r => ih r (hp.2 r) hf⟩
  | loop x body next _ ih => exact ⟨hp.1, fun b => ih b (hp.2 b) hf⟩

/-- A program whose operations are replaced uses what their
replacements use. -/
theorem Uses.interp {Op' : Type} {Ans' : Op' → Type} {P : Op' → Prop}
    {f : (o : Op) → Prog Op' Ans' (Ans o)} (hf : ∀ o, (f o).Uses P) (p : Prog Op Ans α) :
    (p.interp f).Uses P := by
  induction p with
  | ret a => exact trivial
  | op o next ih => exact (hf o).bind ih
  | loop x body next ihBody ihNext => exact ⟨ihBody, ihNext⟩

/-- The program has no loop and performs at most `n` operations. -/
def Within : {α : Type} → Prog Op Ans α → Nat → Prop
  | _, ret _, _ => True
  | _, op _ next, n => 0 < n ∧ ∀ r, (next r).Within (n - 1)
  | _, loop .., _ => False

@[simp] theorem within_ret (a : α) (n : Nat) : (ret a : Prog Op Ans α).Within n := trivial

@[simp] theorem within_op (o : Op) (next : Ans o → Prog Op Ans α) (n : Nat) :
    (op o next).Within n ↔ 0 < n ∧ ∀ r, (next r).Within (n - 1) := Iff.rfl

@[simp] theorem within_perform (o : Op) (n : Nat) :
    (perform o : Prog Op Ans (Ans o)).Within n ↔ 0 < n := by
  simp [perform]

/-- A program that performs few operations performs no more than a
larger number. -/
theorem Within.mono {p : Prog Op Ans α} {m n : Nat} (hp : p.Within m) (h : m ≤ n) : p.Within n := by
  induction p generalizing m n with
  | ret a => exact trivial
  | op o next ih => exact ⟨Nat.lt_of_lt_of_le hp.1 h, fun r => ih r (hp.2 r) (Nat.sub_le_sub_right h 1)⟩
  | loop x body next => exact hp.elim

/-- A sequence performs at most as many operations as its parts together. -/
theorem Within.bind {p : Prog Op Ans α} {f : α → Prog Op Ans β} {m n : Nat} (hp : p.Within m)
    (hf : ∀ a, (f a).Within n) : (p.bind f).Within (m + n) := by
  induction p generalizing m with
  | ret a => exact (hf a).mono (Nat.le_add_left n m)
  | op o next ih =>
      refine ⟨Nat.add_pos_left hp.1 n, fun r => ?_⟩
      rw [Nat.sub_add_comm hp.1]
      exact ih r (hp.2 r) hf
  | loop x body next => exact hp.elim

/-- The program performs the operations of a list, with their answers, and
goes on as another. -/
inductive Performs : Prog Op Ans α → List (Σ o : Op, Ans o) → Prog Op Ans α → Prop
  | nil (p : Prog Op Ans α) : Performs p [] p
  | op {o : Op} {next : Ans o → Prog Op Ans α} {r : Ans o} {rest : List (Σ o : Op, Ans o)}
      {p' : Prog Op Ans α} (h : Performs (next r) rest p') : Performs (op o next) (⟨o, r⟩ :: rest) p'
  | loop {σ β : Type} {x : σ} {body : σ → Prog Op Ans (σ ⊕ β)} {next : β → Prog Op Ans α}
      {rest : List (Σ o : Op, Ans o)} {p' : Prog Op Ans α} (h : Performs (unroll x body next) rest p') :
      Performs (loop x body next) rest p'

/-- An operation that is answered adds itself to what was performed. -/
theorem Performs.answer {p : Prog Op Ans α} {past : List (Σ o : Op, Ans o)} {o : Op}
    {next : Ans o → Prog Op Ans α} (h : Performs p past (.op o next)) (r : Ans o) :
    Performs p (past ++ [⟨o, r⟩]) (next r) := by
  generalize hRest : Prog.op o next = rest at h
  induction h with
  | nil p =>
      subst hRest
      exact .op (.nil _)
  | op _ ih => exact .op (ih hRest)
  | loop _ ih => exact .loop (ih hRest)

/-- What a program performs is among the operations that it can perform. -/
theorem Performs.uses {P : Op → Prop} {p p' : Prog Op Ans α} {past : List (Σ o : Op, Ans o)}
    (h : Performs p past p') (hp : p.Uses P) : p'.Uses P := by
  induction h with
  | nil p => exact hp
  | op _ ih => exact ih (hp.2 _)
  | loop _ ih =>
      refine ih ((hp.1 _).bind ?_)
      rintro (y | b)
      · exact hp
      · exact hp.2 b

@[simp] theorem performs_ret {a : α} {past : List (Σ o : Op, Ans o)} {p' : Prog Op Ans α} :
    Performs (.ret a) past p' ↔ past = [] ∧ p' = .ret a := by
  constructor
  · intro h
    cases h
    exact ⟨rfl, rfl⟩
  · rintro ⟨rfl, rfl⟩
    exact .nil _

/-- A program that begins with an operation has performed nothing yet, or that
operation first. -/
theorem performs_op {o : Op} {next : Ans o → Prog Op Ans α} {past : List (Σ o : Op, Ans o)}
    {p' : Prog Op Ans α} :
    Performs (.op o next) past p' ↔
      (past = [] ∧ p' = .op o next) ∨ ∃ r rest, past = ⟨o, r⟩ :: rest ∧ Performs (next r) rest p' := by
  constructor
  · intro h
    cases h with
    | nil => exact .inl ⟨rfl, rfl⟩
    | op h => exact .inr ⟨_, _, rfl, h⟩
  · rintro (⟨rfl, rfl⟩ | ⟨r, rest, rfl, h⟩)
    · exact .nil _
    · exact .op h

end Prog
end Thread
