import NoCapKVM.Thread.Program

/-! One thread on a state that others change between its operations. A run
keeps its whole past, so an assertion may speak about the order of events.
`Safe` is a weakest precondition for such runs. Loops need a stable invariant. -/
namespace Thread

/-- An event of a run: an operation of the thread with its answer, or an
action of the surroundings. -/
inductive Label (Op : Type) (Ans : Op → Type) (Act : Type) where
  | did (o : Op) (r : Ans o)
  | env (a : Act)

/-- How operations and outside actions change the shared state. Both are
relations: the answer of an operation may depend on what is not modelled. -/
structure System (Op : Type) (Ans : Op → Type) (Act S : Type) where
  exec : (o : Op) → S → Ans o → S → Prop
  env : Act → S → S → Prop

/-- A property of the past, newest event first, and the present state. -/
abbrev Assertion (Op : Type) (Ans : Op → Type) (Act S : Type) :=
  List (Label Op Ans Act) → S → Prop

variable {Op : Type} {Ans : Op → Type} {Act S α β σ : Type}

/-- A single step, with the events it adds. Entering a round of a
loop adds none. -/
inductive Step (sys : System Op Ans Act S) :
    Prog Op Ans α → S → List (Label Op Ans Act) → Prog Op Ans α → S → Prop where
  | op {o : Op} {next : Ans o → Prog Op Ans α} {s s' : S} {r : Ans o} (h : sys.exec o s r s') :
      Step sys (.op o next) s [.did o r] (next r) s'
  | loop {σ β : Type} (x : σ) (body : σ → Prog Op Ans (σ ⊕ β)) (next : β → Prog Op Ans α) (s : S) :
      Step sys (.loop x body next) s [] (.unroll x body next) s
  | env {p : Prog Op Ans α} {s s' : S} {a : Act} (h : sys.env a s s') :
      Step sys p s [.env a] p s'

/-- The configurations that a thread can reach, with everything that
happened so far. -/
inductive Run (sys : System Op Ans Act S) (start : Prog Op Ans α) (init : S) :
    List (Label Op Ans Act) → Prog Op Ans α → S → Prop where
  | start : Run sys start init [] start init
  | step {past new : List (Label Op Ans Act)} {p p' : Prog Op Ans α} {s s' : S}
      (prior : Run sys start init past p s) (last : Step sys p s new p' s') :
      Run sys start init (new ++ past) p' s'

/-- An operation with an answer that the system can give continues a run. -/
theorem Run.did {sys : System Op Ans Act S} {start : Prog Op Ans α} {init s s' : S}
    {past : List (Label Op Ans Act)} {o : Op} {next : Ans o → Prog Op Ans α} {r : Ans o}
    (prior : Run sys start init past (.op o next) s) (h : sys.exec o s r s') :
    Run sys start init (.did o r :: past) (next r) s' :=
  prior.step (.op h)

/-- Two runs in a row are one. -/
theorem Run.trans {sys : System Op Ans Act S} {p₀ p p' : Prog Op Ans α} {s₀ s s' : S}
    {before after : List (Label Op Ans Act)} (left : Run sys p₀ s₀ before p s)
    (right : Run sys p s after p' s') : Run sys p₀ s₀ (after ++ before) p' s' := by
  induction right with
  | start => exact left
  | step _ last ih => simpa only [List.append_assoc] using ih.step last

/-- What the first part of a program does, the whole program does. -/
theorem Run.bind {sys : System Op Ans Act S} {p p' : Prog Op Ans α} {s s' : S}
    {past : List (Label Op Ans Act)} (run : Run sys p s past p' s') (f : α → Prog Op Ans β) :
    Run sys (p.bind f) s past (p'.bind f) s' := by
  induction run with
  | start => exact .start
  | step _ last ih =>
      cases last with
      | op h => exact ih.step (.op h)
      | loop x body next =>
          refine ih.step ?_
          rw [Prog.unroll_bind]
          exact .loop x body _ _
      | env h => exact ih.step (.env h)

/-- Only the surroundings act. -/
inductive Idle (sys : System Op Ans Act S) (past : List (Label Op Ans Act)) (s : S) :
    List (Label Op Ans Act) → S → Prop where
  | refl : Idle sys past s past s
  | step {past' : List (Label Op Ans Act)} {s' s'' : S} {a : Act}
      (prior : Idle sys past s past' s') (last : sys.env a s' s'') :
      Idle sys past s (.env a :: past') s''

theorem Idle.head {sys : System Op Ans Act S} {past past' : List (Label Op Ans Act)} {s s' s'' : S}
    {a : Act} (first : sys.env a s s') (rest : Idle sys (.env a :: past) s' past' s'') :
    Idle sys past s past' s'' := by
  induction rest with
  | refl => exact .step .refl first
  | step _ last ih => exact .step ih last

/-- No outside action can make the assertion false. -/
def Stable (sys : System Op Ans Act S) (P : Assertion Op Ans Act S) : Prop :=
  ∀ past s a s', P past s → sys.env a s s' → P (.env a :: past) s'

/-- What is stable holds after any number of actions of the others. -/
theorem Stable.idle {sys : System Op Ans Act S} {P : Assertion Op Ans Act S} (hP : Stable sys P)
    {past past' : List (Label Op Ans Act)} {s s' : S} (idle : Idle sys past s past' s')
    (h : P past s) : P past' s' := by
  induction idle with
  | refl => exact h
  | step _ last ih => exact hP _ _ _ _ ih last

/-- Two stable assertions are one. -/
theorem Stable.and {sys : System Op Ans Act S} {P R : Assertion Op Ans Act S} (hP : Stable sys P)
    (hR : Stable sys R) : Stable sys fun past s => P past s ∧ R past s :=
  fun past s a s' h hAct => ⟨hP past s a s' h.1 hAct, hR past s a s' h.2 hAct⟩

/-- Every operation is performed only where `ok` allows it, and `Q`
holds of the result whenever the program ends. The surroundings may act
at any point. -/
def Safe (sys : System Op Ans Act S) (ok : Op → Assertion Op Ans Act S) :
    {α : Type} → Prog Op Ans α → (α → Assertion Op Ans Act S) → Assertion Op Ans Act S
  | _, .ret a, Q, past, s => ∀ past' s', Idle sys past s past' s' → Q a past' s'
  | _, .op o next, Q, past, s => ∀ past' s', Idle sys past s past' s' → ok o past' s' ∧
      ∀ r s'', sys.exec o s' r s'' → Safe sys ok (next r) Q (.did o r :: past') s''
  | _, .loop x body next, Q, past, s => ∃ I : _ → Assertion Op Ans Act S,
      (∀ y, Stable sys (I y)) ∧ I x past s ∧ ∀ y past s, I y past s →
        Safe sys ok (body y) (fun e past s => match e with
          | .inl z => I z past s
          | .inr b => Safe sys ok (next b) Q past s) past s

variable {sys : System Op Ans Act S} {ok : Op → Assertion Op Ans Act S}

/-- A program guarantees whatever follows from what it guarantees. -/
theorem Safe.mono {p : Prog Op Ans α} {Q R : α → Assertion Op Ans Act S}
    (hQR : ∀ a past s, Q a past s → R a past s) {past : List (Label Op Ans Act)} {s : S}
    (h : Safe sys ok p Q past s) : Safe sys ok p R past s := by
  induction p generalizing past s with
  | ret a => exact fun past' s' idle => hQR _ _ _ (h past' s' idle)
  | op o next ih =>
      intro past' s' idle
      obtain ⟨hOk, hNext⟩ := h past' s' idle
      exact ⟨hOk, fun r s'' he => ih r hQR (hNext r s'' he)⟩
  | loop x body next ihBody ihNext =>
      obtain ⟨I, hStable, hx, hBody⟩ := h
      refine ⟨I, hStable, hx, fun y past s hy => ihBody y ?_ (hBody y past s hy)⟩
      intro e past s he
      cases e with
      | inl z => exact he
      | inr b => exact ihNext b hQR he

/-- Outside actions never invalidate a safe program. -/
theorem Safe.idle {p : Prog Op Ans α} {Q : α → Assertion Op Ans Act S}
    {past past' : List (Label Op Ans Act)} {s s' : S} (idle : Idle sys past s past' s')
    (h : Safe sys ok p Q past s) : Safe sys ok p Q past' s' := by
  induction idle with
  | refl => exact h
  | step _ last ih =>
      cases p with
      | ret a => exact fun past' s' rest => ih past' s' (.head last rest)
      | op o next => exact fun past' s' rest => ih past' s' (.head last rest)
      | loop x body next =>
          obtain ⟨I, hStable, hx, hBody⟩ := ih
          exact ⟨I, hStable, hStable x _ _ _ _ hx last, hBody⟩

/-- A sequence is safe if its second part is, wherever the first one ends. -/
theorem Safe.bind {p : Prog Op Ans α} {f : α → Prog Op Ans β} {Q : β → Assertion Op Ans Act S}
    {past : List (Label Op Ans Act)} {s : S}
    (h : Safe sys ok p (fun a past s => Safe sys ok (f a) Q past s) past s) :
    Safe sys ok (p.bind f) Q past s := by
  induction p generalizing past s with
  | ret a => exact h past s .refl
  | op o next ih =>
      intro past' s' idle
      obtain ⟨hOk, hNext⟩ := h past' s' idle
      exact ⟨hOk, fun r s'' he => ih r (hNext r s'' he)⟩
  | loop x body next _ ihNext =>
      obtain ⟨I, hStable, hx, hBody⟩ := h
      refine ⟨I, hStable, hx, fun y past s hy => (hBody y past s hy).mono ?_⟩
      intro e past s he
      cases e with
      | inl z => exact he
      | inr b => exact ihNext b he

/-- The rule for the end of a program. -/
theorem Safe.ret {a : α} {Q : α → Assertion Op Ans Act S} (hQ : Stable sys (Q a))
    {past : List (Label Op Ans Act)} {s : S} (h : Q a past s) : Safe sys ok (.ret a) Q past s :=
  fun _ _ idle => hQ.idle idle h

/-- The same rule where only the assertion shows what the result is for. -/
theorem Safe.ret_of {a : α} {Q : α → Assertion Op Ans Act S} (P : Assertion Op Ans Act S) (hQ : Q a = P)
    (hP : Stable sys P) {past : List (Label Op Ans Act)} {s : S} (h : P past s) : Safe sys ok (.ret a) Q past s := by
  subst hQ
  exact .ret hP h

/-- The rule for one operation from a stable precondition. -/
theorem Safe.op {o : Op} {next : Ans o → Prog Op Ans α} {Q : α → Assertion Op Ans Act S}
    (P : Assertion Op Ans Act S) (hP : Stable sys P)
    {past : List (Label Op Ans Act)} {s : S} (h : P past s)
    (hOk : ∀ past s, P past s → ok o past s)
    (hNext : ∀ past s r s', P past s → sys.exec o s r s' →
      Safe sys ok (next r) Q (.did o r :: past) s') :
    Safe sys ok (.op o next) Q past s := by
  intro past' s' idle
  have h' := hP.idle idle h
  exact ⟨hOk past' s' h', fun r s'' he => hNext past' s' r s'' h' he⟩

/-- The rule for an operation that is allowed anywhere. -/
theorem Safe.op_any {o : Op} {next : Ans o → Prog Op Ans α} {Q : α → Assertion Op Ans Act S}
    (hOk : ∀ past s, ok o past s) (hNext : ∀ r past s, Safe sys ok (next r) Q past s)
    (past : List (Label Op Ans Act)) (s : S) : Safe sys ok (.op o next) Q past s :=
  fun past' s' _ => ⟨hOk past' s', fun r _ _ => hNext r _ _⟩

/-- The rule for a loop: its invariant is stable, and every round keeps it or
ends the loop. -/
theorem Safe.iterate {x : σ} {body : σ → Prog Op Ans (σ ⊕ β)} {Q : β → Assertion Op Ans Act S}
    (I : σ → Assertion Op Ans Act S) (hI : ∀ y, Stable sys (I y)) (hQ : ∀ b, Stable sys (Q b))
    {past : List (Label Op Ans Act)} {s : S} (h : I x past s)
    (hBody : ∀ y past s, I y past s → Safe sys ok (body y) (fun e => Sum.elim I Q e) past s) :
    Safe sys ok (Prog.iterate x body) Q past s := by
  refine ⟨I, hI, h, fun y past s hy => (hBody y past s hy).mono ?_⟩
  intro e past s he
  cases e with
  | inl z => exact he
  | inr b => exact .ret (hQ b) he

/-- A program whose operations all keep an assertion keeps it throughout. -/
theorem Safe.frame (P : Assertion Op Ans Act S) (hP : Stable sys P) {C : Op → Prop}
    (hOk : ∀ o past s, C o → P past s → ok o past s)
    (hKeep : ∀ o past s r s', C o → P past s → sys.exec o s r s' → P (.did o r :: past) s')
    {p : Prog Op Ans α} (hp : p.Uses C) {past : List (Label Op Ans Act)} {s : S} (h : P past s) :
    Safe sys ok p (fun _ => P) past s := by
  induction p generalizing past s with
  | ret a => exact .ret hP h
  | op o next ih =>
      exact .op P hP h (fun past s => hOk o past s hp.1) fun past s r s' hPre he =>
        ih r (hp.2 r) (hKeep o past s r s' hp.1 hPre he)
  | loop x body next ihBody ihNext =>
      refine ⟨fun _ => P, fun _ => hP, h, fun y past s hy => (ihBody y (hp.1 y) hy).mono ?_⟩
      intro e past s he
      cases e with
      | inl z => exact he
      | inr b => exact ihNext b (hp.2 b) he

/-- One step of the thread or of the surroundings keeps a program safe. -/
theorem Safe.step {p p' : Prog Op Ans α} {Q : α → Assertion Op Ans Act S}
    {past new : List (Label Op Ans Act)} {s s' : S}
    (h : Safe sys ok p Q past s) (step : Step sys p s new p' s') :
    Safe sys ok p' Q (new ++ past) s' := by
  cases step with
  | op he => exact (h past s .refl).2 _ _ he
  | env he => exact h.idle (.step .refl he)
  | loop x body next =>
      obtain ⟨I, hStable, hx, hBody⟩ := h
      refine Safe.bind ((hBody x past s hx).mono ?_)
      intro e past s he
      cases e with
      | inl z => exact ⟨I, hStable, he, hBody⟩
      | inr b => exact he

/-- What is safe is safe at every point of its runs. -/
theorem Safe.run {p₀ p : Prog Op Ans α} {Q : α → Assertion Op Ans Act S}
    {past : List (Label Op Ans Act)} {s₀ s : S}
    (h : Safe sys ok p₀ Q [] s₀) (run : Run sys p₀ s₀ past p s) : Safe sys ok p Q past s := by
  induction run with
  | start => exact h
  | step _ last ih => exact ih.step last

/-- In a run of a safe program every operation is performed where it is
allowed. -/
theorem Safe.ok_of_run {p₀ : Prog Op Ans α} {o : Op} {next : Ans o → Prog Op Ans α}
    {Q : α → Assertion Op Ans Act S} {past : List (Label Op Ans Act)} {s₀ s : S}
    (h : Safe sys ok p₀ Q [] s₀) (run : Run sys p₀ s₀ past (.op o next) s) : ok o past s :=
  ((h.run run) past s .refl).1

/-- The result of a run that has ended. -/
theorem Safe.result {p₀ : Prog Op Ans α} {a : α} {Q : α → Assertion Op Ans Act S}
    {past : List (Label Op Ans Act)} {s₀ s : S} (h : Safe sys ok p₀ Q [] s₀)
    (run : Run sys p₀ s₀ past (.ret a) s) : Q a past s :=
  h.run run past s .refl

/-- An assertion kept by every allowed operation and every outside action
holds in every run of a safe program. -/
theorem Safe.invariant (P : Assertion Op Ans Act S) (hP : Stable sys P)
    (hKeep : ∀ o past s r s', ok o past s → P past s → sys.exec o s r s' → P (.did o r :: past) s')
    {p₀ p : Prog Op Ans α} {Q : α → Assertion Op Ans Act S} {past : List (Label Op Ans Act)} {s₀ s : S}
    (h : Safe sys ok p₀ Q [] s₀) (hInit : P [] s₀) (run : Run sys p₀ s₀ past p s) : P past s := by
  induction run with
  | start => exact hInit
  | step prior last ih =>
      cases last with
      | op he => exact hKeep _ _ _ _ _ (h.ok_of_run prior) ih he
      | loop => exact ih
      | env he => exact hP _ _ _ _ ih he

/-- An assertion kept by every operation and every outside action holds in
every run. -/
theorem Run.invariant (P : Assertion Op Ans Act S) (hP : Stable sys P)
    (hKeep : ∀ o past s r s', P past s → sys.exec o s r s' → P (.did o r :: past) s')
    {p₀ p : Prog Op Ans α} {past : List (Label Op Ans Act)} {s₀ s : S} (h : P [] s₀)
    (run : Run sys p₀ s₀ past p s) : P past s := by
  induction run with
  | start => exact h
  | step _ last ih =>
      cases last with
      | op he => exact hKeep _ _ _ _ _ ih he
      | loop => exact ih
      | env he => exact hP _ _ _ _ ih he

-- Proofs about programs use the rules.
attribute [irreducible] Safe

end Thread
