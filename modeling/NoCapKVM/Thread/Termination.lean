import NoCapKVM.Thread.Safety

/-! Total correctness of a program that nobody interferes with: however its
operations are answered, it ends. -/
namespace Thread

variable {Op : Type} {Ans : Op → Type} {S α β σ : Type}

/-- Every run of the program from `s` ends, and with a result and a state in
`Q`. An operation that nothing answers does not count as an end. -/
inductive Returns (exec : (o : Op) → S → Ans o → S → Prop) (Q : α → S → Prop) :
    Prog Op Ans α → S → Prop where
  | ret {a : α} {s : S} (h : Q a s) : Returns exec Q (.ret a) s
  | op {o : Op} {next : Ans o → Prog Op Ans α} {s : S} (enabled : ∃ r s', exec o s r s')
      (rest : ∀ r s', exec o s r s' → Returns exec Q (next r) s') : Returns exec Q (.op o next) s
  | loop {σ β : Type} {x : σ} {body : σ → Prog Op Ans (σ ⊕ β)} {next : β → Prog Op Ans α} {s : S}
      (rest : Returns exec Q (.unroll x body next) s) : Returns exec Q (.loop x body next) s

variable {exec : (o : Op) → S → Ans o → S → Prop}

theorem Returns.mono {Q R : α → S → Prop} {p : Prog Op Ans α} {s : S} (h : Returns exec Q p s)
    (hQR : ∀ a s, Q a s → R a s) : Returns exec R p s := by
  induction h with
  | ret h => exact .ret (hQR _ _ h)
  | op enabled _ ih => exact .op enabled ih
  | loop _ ih => exact .loop ih

theorem Returns.bind {Q : β → S → Prop} {p : Prog Op Ans α} {f : α → Prog Op Ans β} {s : S}
    (h : Returns exec (fun a s => Returns exec Q (f a) s) p s) : Returns exec Q (p.bind f) s := by
  induction h with
  | ret h => exact h
  | op enabled _ ih => exact .op enabled ih
  | loop _ ih =>
      rw [Prog.unroll_bind] at ih
      exact .loop ih

/-- A loop ends if every round keeps `I` and makes `μ` smaller, or ends it. -/
theorem Returns.iterate {Q : β → S → Prop} {body : σ → Prog Op Ans (σ ⊕ β)} (I : σ → S → Prop)
    (μ : σ → S → Nat)
    (hBody : ∀ x s, I x s →
      Returns exec (fun e s' => Sum.elim (fun y => I y s' ∧ μ y s' < μ x s) (Q · s') e) (body x) s)
    {x : σ} {s : S} (h : I x s) : Returns exec Q (Prog.iterate x body) s := by
  generalize hμ : μ x s = n
  induction n using Nat.strongRecOn generalizing x s with
  | ind n ih =>
      refine .loop (.bind ((hBody x s h).mono ?_))
      intro e s' hE
      cases e with
      | inl y =>
          obtain ⟨hI, hLt⟩ := hE
          exact ih _ (hμ ▸ hLt) hI rfl
      | inr b => exact .ret hE

/-- Operations on a state that nobody else changes. -/
def alone (exec : (o : Op) → S → Ans o → S → Prop) : System Op Ans Empty S where
  exec := exec
  env a := nomatch a

theorem Returns.step {Q : α → S → Prop} {p p' : Prog Op Ans α} {s s' : S}
    {new : List (Label Op Ans Empty)} (h : Returns exec Q p s) (step : Step (alone exec) p s new p' s') :
    Returns exec Q p' s' := by
  cases step with
  | op he =>
      cases h with
      | op _ rest => exact rest _ _ he
  | loop =>
      cases h with
      | loop rest => exact rest
  | @env _ _ _ a _ => exact nomatch a

theorem Returns.run {Q : α → S → Prop} {p p' : Prog Op Ans α} {s s' : S}
    {past : List (Label Op Ans Empty)} (h : Returns exec Q p s) (run : Run (alone exec) p s past p' s') :
    Returns exec Q p' s' := by
  induction run with
  | start => exact h
  | step _ last ih => exact ih.step last

theorem Run.weaken {exec' : (o : Op) → S → Ans o → S → Prop}
    (hSub : ∀ o s r s', exec o s r s' → exec' o s r s') {p p' : Prog Op Ans α} {s s' : S}
    {past : List (Label Op Ans Empty)} (run : Run (alone exec) p s past p' s') :
    Run (alone exec') p s past p' s' := by
  induction run with
  | start => exact .start
  | step _ last ih =>
      cases last with
      | op he => exact ih.step (.op (hSub _ _ _ _ he))
      | loop => exact ih.step (.loop _ _ _ _)
      | @env _ _ _ a _ => exact nomatch a

/-- A program that returns has a run to its end, also where more answers are
possible. -/
theorem Returns.exists_run {Q : α → S → Prop} {p : Prog Op Ans α} {s : S} (h : Returns exec Q p s)
    {exec' : (o : Op) → S → Ans o → S → Prop} (hSub : ∀ o s r s', exec o s r s' → exec' o s r s') :
    ∃ past a s', Run (alone exec') p s past (.ret a) s' ∧ Q a s' := by
  induction h with
  | ret h => exact ⟨_, _, _, .start, h⟩
  | op enabled _ ih =>
      obtain ⟨r, s', hExec⟩ := enabled
      obtain ⟨past, a, s'', hRun, hQ⟩ := ih r s' hExec
      exact ⟨_, a, s'', (Run.start.step (.op (hSub _ _ _ _ hExec))).trans hRun, hQ⟩
  | loop _ ih =>
      obtain ⟨past, a, s'', hRun, hQ⟩ := ih
      exact ⟨_, a, s'', (Run.start.step (.loop _ _ _ _)).trans hRun, hQ⟩

/-- A result that a run has reached is one in `Q`. -/
theorem Returns.result {Q : α → S → Prop} {p : Prog Op Ans α} {s s' : S} {a : α}
    {past : List (Label Op Ans Empty)} (h : Returns exec Q p s)
    (run : Run (alone exec) p s past (.ret a) s') : Q a s' := by
  cases h.run run with
  | ret hQ => exact hQ

end Thread
