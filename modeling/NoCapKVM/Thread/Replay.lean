import NoCapKVM.Thread.Safety

/-! Concrete runs by evaluation. A system whose answers can be computed from
choices is played along a list of cues, and what the play reaches is reached. -/
namespace Thread

variable {Op : Type} {Ans : Op → Type} {Act S Choice α : Type}

/-- Answers of a system that are computed from a choice, and its reactions to
outside actions. Either may be impossible. -/
structure Player (sys : System Op Ans Act S) (Choice : Type) where
  respond : (o : Op) → S → Choice → Option (Ans o × S)
  respond_exec : ∀ {o s x r s'}, respond o s x = some (r, s') → sys.exec o s r s'
  react : Act → S → Option S
  react_env : ∀ {a s s'}, react a s = some s' → sys.env a s s'

/-- The next event of a play. Entering a round of a loop has a
cue of its own. -/
inductive Cue (Act Choice : Type) where
  | answer (x : Choice)
  | enter
  | env (a : Act)

/-- Where a run is. -/
structure Config (Op : Type) (Ans : Op → Type) (Act S α : Type) where
  past : List (Label Op Ans Act)
  prog : Prog Op Ans α
  state : S

def Prog.ended : Prog Op Ans α → Bool
  | .ret _ => true
  | _ => false

theorem Prog.eq_ret_of_ended {p : Prog Op Ans α} (h : p.ended = true) : ∃ a, p = .ret a := by
  cases p with
  | ret a => exact ⟨a, rfl⟩
  | op o next => cases h
  | loop x body next => cases h

namespace Player

variable {sys : System Op Ans Act S}

def cue (player : Player sys Choice) (c : Config Op Ans Act S α) :
    Cue Act Choice → Option (Config Op Ans Act S α)
  | .answer x =>
      match c.prog with
      | .op o next => (player.respond o c.state x).map fun (r, s) => ⟨.did o r :: c.past, next r, s⟩
      | _ => none
  | .enter =>
      match c.prog with
      | .loop x body next => some ⟨c.past, .unroll x body next, c.state⟩
      | _ => none
  | .env a => (player.react a c.state).map fun s => ⟨.env a :: c.past, c.prog, s⟩

def play (player : Player sys Choice) :
    List (Cue Act Choice) → Config Op Ans Act S α → Option (Config Op Ans Act S α)
  | [], c => some c
  | x :: xs, c => (player.cue c x).bind (player.play xs)

theorem cue_step {player : Player sys Choice} {c c' : Config Op Ans Act S α} {x : Cue Act Choice}
    (h : player.cue c x = some c') :
    ∃ new, c'.past = new ++ c.past ∧ Step sys c.prog c.state new c'.prog c'.state := by
  obtain ⟨past, p, s⟩ := c
  cases x with
  | answer x =>
      cases p with
      | op o next =>
          obtain ⟨⟨r, s'⟩, hRespond, rfl⟩ := Option.map_eq_some_iff.mp h
          exact ⟨[.did o r], rfl, .op (player.respond_exec hRespond)⟩
      | ret a => cases h
      | loop x body next => cases h
  | enter =>
      cases p with
      | loop x body next =>
          obtain rfl := Option.some.inj h
          exact ⟨[], rfl, .loop x body next s⟩
      | ret a => cases h
      | op o next => cases h
  | env a =>
      obtain ⟨s', hReact, rfl⟩ := Option.map_eq_some_iff.mp h
      exact ⟨[.env a], rfl, .env (player.react_env hReact)⟩

theorem play_run {player : Player sys Choice} {start : Prog Op Ans α} {init : S}
    {xs : List (Cue Act Choice)} {c c' : Config Op Ans Act S α} (h : player.play xs c = some c')
    (run : Run sys start init c.past c.prog c.state) : Run sys start init c'.past c'.prog c'.state := by
  induction xs generalizing c with
  | nil =>
      obtain rfl := Option.some.inj h
      exact run
  | cons x xs ih =>
      obtain ⟨c₁, hCue, hRest⟩ := Option.bind_eq_some_iff.mp h
      obtain ⟨new, hPast, hStep⟩ := cue_step hCue
      refine ih hRest ?_
      rw [hPast]
      exact run.step hStep

/-- A play that ends where `check` holds gives a run that does. -/
theorem exists_run (player : Player sys Choice) (start : Prog Op Ans α) (init : S)
    (xs : List (Cue Act Choice)) (check : Config Op Ans Act S α → Bool)
    (h : (player.play xs ⟨[], start, init⟩).any check = true) :
    ∃ past p s, Run sys start init past p s ∧ check ⟨past, p, s⟩ = true := by
  cases hPlay : player.play xs ⟨[], start, init⟩ with
  | none =>
      rw [hPlay] at h
      cases h
  | some c =>
      rw [hPlay] at h
      exact ⟨c.past, c.prog, c.state, play_run hPlay .start, h⟩

end Player
end Thread
