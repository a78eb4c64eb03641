import Mathlib.Algebra.Order.Ring.Nat
import NoCapKVM.Thread.Program

/-! Two programs that exchange bytes over a pair of ordered streams. Each side
is deterministic in its own state and in what has arrived. The order in which
the two sides take their steps is arbitrary, and does not change the outcome. -/
namespace Thread

/-- What has arrived and was not read yet. After `closed` nothing more
arrives. -/
structure Inbox (Byte : Type) where
  data : List Byte := []
  closed : Bool := false

namespace Inbox

variable {Byte : Type}

def deliver (i : Inbox Byte) (sent : List Byte) (closes : Bool) : Inbox Byte :=
  if i.closed then i else ⟨i.data ++ sent, closes⟩

def drop (i : Inbox Byte) (n : Nat) : Inbox Byte :=
  ⟨i.data.drop n, i.closed⟩

@[simp] theorem drop_data (i : Inbox Byte) (n : Nat) : (i.drop n).data = i.data.drop n := rfl

@[simp] theorem drop_closed (i : Inbox Byte) (n : Nat) : (i.drop n).closed = i.closed := rfl

@[simp] theorem deliver_nil (i : Inbox Byte) : i.deliver [] false = i := by
  obtain ⟨data, closed⟩ := i
  cases closed <;> simp [deliver]

/-- Two deliveries arrive as one. -/
theorem deliver_deliver (i : Inbox Byte) (first second : List Byte) (closes : Bool) :
    (i.deliver first false).deliver second closes = i.deliver (first ++ second) closes := by
  by_cases hClosed : i.closed = true
  · simp [deliver, hClosed]
  · simp [deliver, hClosed]

/-- A delivery takes nothing away. -/
theorem length_le_deliver (i : Inbox Byte) (sent : List Byte) (closes : Bool) :
    i.data.length ≤ (i.deliver sent closes).data.length := by
  unfold deliver
  split <;> simp

/-- Reading from the front and arrival at the back commute. -/
theorem drop_deliver {i : Inbox Byte} {n : Nat} (h : n ≤ i.data.length) (sent : List Byte)
    (closes : Bool) : (i.deliver sent closes).drop n = (i.drop n).deliver sent closes := by
  unfold deliver drop
  by_cases hClosed : i.closed = true
  · simp [hClosed]
  · simp [hClosed, List.drop_append_of_le_length h]

/-- A blocking read of exactly `n` bytes, with the number of bytes it
consumes. It waits while too little has arrived, and fails if the peer has
closed by then. -/
def read (i : Inbox Byte) (n : Nat) : Option (Option {data : List Byte // data.length = n} × Nat) :=
  if h : n ≤ i.data.length then some (some ⟨i.data.take n, List.length_take_of_le h⟩, n)
  else if i.closed then some (none, i.data.length)
  else none

/-- A read takes only what has arrived. -/
theorem read_taken {i : Inbox Byte} {n : Nat} {r : Option {data : List Byte // data.length = n} × Nat}
    (h : i.read n = some r) : r.2 ≤ i.data.length := by
  unfold read at h
  split at h
  · cases h
    assumption
  · split at h
    · cases h
      exact Nat.le_refl _
    · cases h

/-- A read that is possible stays possible, with the same result, whatever
arrives behind it. -/
theorem read_deliver {i : Inbox Byte} {n : Nat}
    {r : Option {data : List Byte // data.length = n} × Nat} (h : i.read n = some r)
    (sent : List Byte) (closes : Bool) : (i.deliver sent closes).read n = some r := by
  by_cases hClosed : i.closed = true
  · simpa [deliver, hClosed] using h
  · by_cases hLen : n ≤ i.data.length
    · have hMore : n ≤ (i.deliver sent closes).data.length :=
        Nat.le_trans hLen (length_le_deliver i sent closes)
      simp only [read, hLen, hMore, dite_true] at h ⊢
      rw [← h, Option.some.injEq, Prod.mk.injEq, Option.some.injEq, Subtype.mk.injEq]
      refine ⟨?_, rfl⟩
      simp [deliver, hClosed, List.take_append_of_le_length hLen]
    · simp [read, hLen, hClosed] at h

/-- What was sent as one piece is read back as that piece. -/
theorem read_append {i : Inbox Byte} {n : Nat} {piece rest : List Byte}
    (hData : i.data = piece ++ rest) (hLen : piece.length = n) :
    i.read n = some (some ⟨piece, hLen⟩, n) := by
  have hEnough : n ≤ i.data.length := by
    rw [hData, List.length_append]
    omega
  rw [read, dif_pos hEnough]
  simp only [hData, List.take_left' hLen]

end Inbox

/-- The effect of one operation of a party: its answer, its new local state,
how many bytes it read, and what it puts on the wire. -/
structure Reply (Op : Type) (Ans : Op → Type) (Loc Byte : Type) (o : Op) where
  answer : Ans o
  loc : Loc
  taken : Nat := 0
  sent : List Byte := []
  closes : Bool := false

/-- How one party performs its operations. `none` means that the operation
waits for more input. Later arrivals change nothing about an enabled
operation. -/
structure Handler (Op : Type) (Ans : Op → Type) (Loc Byte : Type) where
  act : (o : Op) → Loc → Inbox Byte → Option (Reply Op Ans Loc Byte o)
  taken_le : ∀ {o l i r}, act o l i = some r → r.taken ≤ i.data.length
  mono : ∀ {o l i r}, act o l i = some r → ∀ sent closes, act o l (i.deliver sent closes) = some r

/-- One side of an exchange, with the record of its operations and answers. -/
structure Party (Op : Type) (Ans : Op → Type) (Loc Byte α : Type) where
  prog : Prog Op Ans α
  loc : Loc
  inbox : Inbox Byte := {}
  trace : List (Σ o, Ans o) := []

/-- What a side puts on the wire in one step. -/
structure Outgoing (Byte : Type) where
  sent : List Byte := []
  closes : Bool := false

namespace Party

variable {Op : Type} {Ans : Op → Type} {Loc Byte α : Type}

def step (H : Handler Op Ans Loc Byte) (P : Party Op Ans Loc Byte α) :
    Option (Party Op Ans Loc Byte α × Outgoing Byte) :=
  match P.prog with
  | .ret _ => none
  | .loop x body next => some ({ P with prog := .unroll x body next }, {})
  | .op o next => (H.act o P.loc P.inbox).map fun r =>
      (⟨next r.answer, r.loc, P.inbox.drop r.taken, P.trace ++ [⟨o, r.answer⟩]⟩, ⟨r.sent, r.closes⟩)

def receive (P : Party Op Ans Loc Byte α) (out : Outgoing Byte) : Party Op Ans Loc Byte α :=
  { P with inbox := P.inbox.deliver out.sent out.closes }

/-- An arrival leaves an enabled step as it is. -/
theorem step_receive (H : Handler Op Ans Loc Byte) {P Q : Party Op Ans Loc Byte α}
    {out : Outgoing Byte} (h : P.step H = some (Q, out)) (arrival : Outgoing Byte) :
    (P.receive arrival).step H = some (Q.receive arrival, out) := by
  obtain ⟨prog, loc, inbox, trace⟩ := P
  cases prog with
  | ret a => simp [step] at h
  | loop x body next =>
      simp only [step, Option.some.injEq, Prod.mk.injEq] at h
      obtain ⟨rfl, rfl⟩ := h
      rfl
  | op o next =>
      simp only [step, Option.map_eq_some_iff, Prod.mk.injEq] at h
      obtain ⟨r, hr, rfl, rfl⟩ := h
      simp only [step, receive, H.mono hr arrival.sent arrival.closes, Option.map_some,
        Inbox.drop_deliver (H.taken_le hr)]

/-- A step adds to the record of a side and takes nothing back. -/
theorem step_trace (H : Handler Op Ans Loc Byte) {P Q : Party Op Ans Loc Byte α}
    {out : Outgoing Byte} (h : P.step H = some (Q, out)) : P.trace <+: Q.trace := by
  obtain ⟨prog, loc, inbox, trace⟩ := P
  cases prog with
  | ret a => simp [step] at h
  | loop x body next =>
      simp only [step, Option.some.injEq, Prod.mk.injEq] at h
      obtain ⟨rfl, rfl⟩ := h
      exact List.prefix_rfl
  | op o next =>
      simp only [step, Option.map_eq_some_iff, Prod.mk.injEq] at h
      obtain ⟨r, hr, rfl, rfl⟩ := h
      exact List.prefix_append _ _

/-- What a side does with the input it has: the steps to `Q`, which put `sent`
on the wire and leave it open. -/
inductive Reaches (H : Handler Op Ans Loc Byte) :
    Party Op Ans Loc Byte α → List Byte → Party Op Ans Loc Byte α → Prop where
  | refl (P) : Reaches H P [] P
  | op {o next loc inbox trace rest sent Q} {r : Reply Op Ans Loc Byte o}
      (hAct : H.act o loc inbox = some r) (hOpen : r.closes = false) (hSent : sent = r.sent ++ rest)
      (hRest : Reaches H ⟨next r.answer, r.loc, inbox.drop r.taken, trace ++ [⟨o, r.answer⟩]⟩ rest Q) :
      Reaches H ⟨.op o next, loc, inbox, trace⟩ sent Q
  | loop {σ β : Type} {x : σ} {body : σ → Prog Op Ans (σ ⊕ β)} {next loc inbox trace sent Q}
      (rest : Reaches H ⟨.unroll x body next, loc, inbox, trace⟩ sent Q) :
      Reaches H ⟨.loop x body next, loc, inbox, trace⟩ sent Q

/-- What two parts put on the wire, the whole puts there in this order. -/
theorem Reaches.trans {H : Handler Op Ans Loc Byte} {P Q R : Party Op Ans Loc Byte α}
    {first second : List Byte} (hPQ : Reaches H P first Q) (hQR : Reaches H Q second R) :
    Reaches H P (first ++ second) R := by
  induction hPQ with
  | refl P => exact hQR
  | op hAct hOpen hSent _ ih =>
      refine .op hAct hOpen ?_ (ih hQR)
      rw [hSent, List.append_assoc]
  | loop rest ih => exact .loop (ih hQR)

@[simp] theorem receive_empty (P : Party Op Ans Loc Byte α) : P.receive {} = P := by
  simp [receive]

/-- What arrives in two parts arrives as a whole. -/
theorem receive_receive (P : Party Op Ans Loc Byte α) (first second : List Byte) :
    (P.receive ⟨first, false⟩).receive ⟨second, false⟩ = P.receive ⟨first ++ second, false⟩ := by
  simp only [receive, Inbox.deliver_deliver]

end Party

/-- The two sides of an exchange, each reading what the other one sent. -/
structure Pair (Op : Type) (Ans : Op → Type) (Op' : Type) (Ans' : Op' → Type)
    (Loc Loc' Byte α β : Type) where
  left : Party Op Ans Loc Byte α
  right : Party Op' Ans' Loc' Byte β

namespace Pair

variable {Op Op' : Type} {Ans : Op → Type} {Ans' : Op' → Type} {Loc Loc' Byte α β : Type}
variable (H : Handler Op Ans Loc Byte) (H' : Handler Op' Ans' Loc' Byte)

def stepLeft (c : Pair Op Ans Op' Ans' Loc Loc' Byte α β) :
    Option (Pair Op Ans Op' Ans' Loc Loc' Byte α β) :=
  (c.left.step H).map fun r => ⟨r.1, c.right.receive r.2⟩

def stepRight (c : Pair Op Ans Op' Ans' Loc Loc' Byte α β) :
    Option (Pair Op Ans Op' Ans' Loc Loc' Byte α β) :=
  (c.right.step H').map fun r => ⟨c.left.receive r.2, r.1⟩

/-- A step of either side. -/
def Moves (c d : Pair Op Ans Op' Ans' Loc Loc' Byte α β) : Prop :=
  c.stepLeft H = some d ∨ c.stepRight H' = some d

/-- `count` steps in some order of the two sides. -/
inductive MovesIn : Nat → Pair Op Ans Op' Ans' Loc Loc' Byte α β →
    Pair Op Ans Op' Ans' Loc Loc' Byte α β → Prop where
  | zero (c) : MovesIn 0 c c
  | succ {count c d e} (first : Moves H H' c d) (rest : MovesIn count d e) : MovesIn (count + 1) c e

def Runs (c d : Pair Op Ans Op' Ans' Loc Loc' Byte α β) : Prop :=
  ∃ count, MovesIn H H' count c d

/-- Neither side can take a step. -/
def Done (c : Pair Op Ans Op' Ans' Loc Loc' Byte α β) : Prop :=
  c.stepLeft H = none ∧ c.stepRight H' = none

variable {H H'}

theorem Runs.refl (c : Pair Op Ans Op' Ans' Loc Loc' Byte α β) : Runs H H' c c :=
  ⟨0, .zero c⟩

/-- Two runs in a row have the steps of both. -/
theorem MovesIn.trans {m n : Nat} {c d e : Pair Op Ans Op' Ans' Loc Loc' Byte α β}
    (first : MovesIn H H' m c d) (second : MovesIn H H' n d e) : MovesIn H H' (m + n) c e := by
  induction first with
  | zero => simpa using second
  | succ move _ ih => simpa only [Nat.add_right_comm] using MovesIn.succ move (ih second)

/-- So they are one run. -/
theorem Runs.trans {c d e : Pair Op Ans Op' Ans' Loc Loc' Byte α β}
    (first : Runs H H' c d) (second : Runs H H' d e) : Runs H H' c e := by
  obtain ⟨m, hm⟩ := first
  obtain ⟨n, hn⟩ := second
  exact ⟨m + n, hm.trans hn⟩

/-- A step before a run makes it a run from where the step began. -/
theorem Runs.head {c d e : Pair Op Ans Op' Ans' Loc Loc' Byte α β}
    (first : Moves H H' c d) (rest : Runs H H' d e) : Runs H H' c e := by
  obtain ⟨n, hn⟩ := rest
  exact ⟨n + 1, .succ first hn⟩

/-- The left side takes several steps while the right one waits. -/
theorem Runs.left {P Q : Party Op Ans Loc Byte α} {sent : List Byte} (h : P.Reaches H sent Q)
    (R : Party Op' Ans' Loc' Byte β) :
    Runs H H' ⟨P, R⟩ ⟨Q, R.receive ⟨sent, false⟩⟩ := by
  induction h generalizing R with
  | refl P => simpa [Party.receive] using Runs.refl _
  | op hAct hOpen hSent _ ih =>
      rw [hSent, ← Party.receive_receive]
      refine .head (Or.inl ?_) (ih _)
      simp only [stepLeft, Party.step, hAct, Option.map_some, hOpen]
  | loop rest ih =>
      refine .head (Or.inl ?_) (ih R)
      simp only [stepLeft, Party.step, Option.map_some, Party.receive_empty]

/-- The right side takes several steps while the left one waits. -/
theorem Runs.right {P Q : Party Op' Ans' Loc' Byte β} {sent : List Byte} (h : P.Reaches H' sent Q)
    (L : Party Op Ans Loc Byte α) :
    Runs H H' ⟨L, P⟩ ⟨L.receive ⟨sent, false⟩, Q⟩ := by
  induction h generalizing L with
  | refl P => simpa [Party.receive] using Runs.refl _
  | op hAct hOpen hSent _ ih =>
      rw [hSent, ← Party.receive_receive]
      refine .head (Or.inr ?_) (ih _)
      simp only [stepRight, Party.step, hAct, Option.map_some, hOpen]
  | loop rest ih =>
      refine .head (Or.inr ?_) (ih L)
      simp only [stepRight, Party.step, Option.map_some, Party.receive_empty]

/-- A step of one side stays possible after a step of the other, and the two
orders lead to the same configuration. -/
theorem diamond {c a b : Pair Op Ans Op' Ans' Loc Loc' Byte α β}
    (ha : c.stepLeft H = some a) (hb : c.stepRight H' = some b) :
    ∃ d, a.stepRight H' = some d ∧ b.stepLeft H = some d := by
  simp only [stepLeft, stepRight, Option.map_eq_some_iff] at ha hb
  obtain ⟨⟨left, outLeft⟩, hLeft, rfl⟩ := ha
  obtain ⟨⟨right, outRight⟩, hRight, rfl⟩ := hb
  refine ⟨⟨left.receive outRight, right.receive outLeft⟩, ?_, ?_⟩
  · simp [stepRight, Party.step_receive H' hRight outLeft]
  · simp [stepLeft, Party.step_receive H hLeft outRight]

/-- Any first step still leads to the final configuration of a finished run,
in one step less. -/
theorem MovesIn.strip {n : Nat} {c a f : Pair Op Ans Op' Ans' Loc Loc' Byte α β}
    (run : MovesIn H H' n c f) (hDone : Done H H' f) (move : Moves H H' c a) :
    ∃ m, n = m + 1 ∧ MovesIn H H' m a f := by
  induction run generalizing a with
  | zero c =>
      rcases move with hLeft | hRight
      · simp [hDone.1] at hLeft
      · simp [hDone.2] at hRight
  | @succ n c d f first rest ih =>
      refine ⟨n, rfl, ?_⟩
      -- Equal sides give equal successors; different sides meet in one step.
      have close : ∀ e, Moves H H' d e → Moves H H' a e → MovesIn H H' n a f := by
        intro e hd ha
        obtain ⟨m, rfl, hRest⟩ := ih hDone hd
        exact .succ ha hRest
      rcases first with hd | hd <;> rcases move with ha | ha
      · obtain rfl := Option.some.inj (hd.symm.trans ha)
        exact rest
      · obtain ⟨e, he, he'⟩ := diamond hd ha
        exact close e (Or.inr he) (Or.inl he')
      · obtain ⟨e, he, he'⟩ := diamond ha hd
        exact close e (Or.inl he') (Or.inr he)
      · obtain rfl := Option.some.inj (hd.symm.trans ha)
        exact rest

/-- If one order of the steps ends in a finished configuration, then every
partial run, in whatever order, can only be continued to that same one. -/
theorem Runs.confluent {c d f : Pair Op Ans Op' Ans' Loc Loc' Byte α β}
    (finished : Runs H H' c f) (hDone : Done H H' f) (run : Runs H H' c d) : Runs H H' d f := by
  obtain ⟨n, hn⟩ := finished
  obtain ⟨m, hm⟩ := run
  induction hm generalizing n with
  | zero => exact ⟨n, hn⟩
  | succ move _ ih =>
      obtain ⟨k, rfl, hk⟩ := hn.strip hDone move
      exact ih k hk

/-- Records only grow. -/
theorem Runs.trace {c d : Pair Op Ans Op' Ans' Loc Loc' Byte α β} (run : Runs H H' c d) :
    c.left.trace <+: d.left.trace ∧ c.right.trace <+: d.right.trace := by
  obtain ⟨n, hn⟩ := run
  induction hn with
  | zero => exact ⟨List.prefix_rfl, List.prefix_rfl⟩
  | succ first _ ih =>
      rcases first with h | h <;> simp only [stepLeft, stepRight, Option.map_eq_some_iff] at h <;>
        obtain ⟨⟨side, out⟩, hSide, rfl⟩ := h
      · exact ⟨(Party.step_trace H hSide).trans ih.1, ih.2⟩
      · exact ⟨ih.1, (Party.step_trace H' hSide).trans ih.2⟩

/-- Nobody reads what was not sent. `took` and `gave` measure the events of a
record: bytes read on the left, bytes sent on the right. -/
theorem Runs.causal (took : (Σ o, Ans o) → Nat) (gave : (Σ o, Ans' o) → Nat)
    (hTook : ∀ {o l i r}, H.act o l i = some r → took ⟨o, r.answer⟩ ≤ r.taken)
    (hGave : ∀ {o l i r}, H'.act o l i = some r → gave ⟨o, r.answer⟩ = r.sent.length)
    {c d : Pair Op Ans Op' Ans' Loc Loc' Byte α β} (run : Runs H H' c d)
    (hInit : (c.left.trace.map took).sum + c.left.inbox.data.length ≤ (c.right.trace.map gave).sum) :
    (d.left.trace.map took).sum + d.left.inbox.data.length ≤ (d.right.trace.map gave).sum := by
  obtain ⟨n, hn⟩ := run
  induction hn with
  | zero => exact hInit
  | @succ n c d e first _ ih =>
      apply ih
      obtain ⟨⟨prog, loc, inbox, trace⟩, ⟨prog', loc', inbox', trace'⟩⟩ := c
      rcases first with h | h <;> simp only [stepLeft, stepRight, Option.map_eq_some_iff] at h <;>
        obtain ⟨⟨side, out⟩, hSide, rfl⟩ := h
      · cases prog with
        | ret a => simp [Party.step] at hSide
        | loop x body next =>
            simp only [Party.step, Option.some.injEq, Prod.mk.injEq] at hSide
            obtain ⟨rfl, rfl⟩ := hSide
            exact hInit
        | op o next =>
            simp only [Party.step, Option.map_eq_some_iff, Prod.mk.injEq] at hSide
            obtain ⟨r, hr, rfl, rfl⟩ := hSide
            have hRead := hTook hr
            have hAvailable := H.taken_le hr
            simp only [Party.receive, List.map_append, List.map_cons, List.map_nil, List.sum_append,
              List.sum_cons, List.sum_nil, Inbox.drop_data, List.length_drop] at hInit ⊢
            omega
      · cases prog' with
        | ret a => simp [Party.step] at hSide
        | loop x body next =>
            simp only [Party.step, Option.some.injEq, Prod.mk.injEq] at hSide
            obtain ⟨rfl, rfl⟩ := hSide
            simpa [Party.receive] using hInit
        | op o next =>
            simp only [Party.step, Option.map_eq_some_iff, Prod.mk.injEq] at hSide
            obtain ⟨r, hr, rfl, rfl⟩ := hSide
            have hSent := hGave hr
            have hArrived : (inbox.deliver r.sent r.closes).data.length ≤
                inbox.data.length + r.sent.length := by
              unfold Inbox.deliver
              split <;> simp
            simp only [Party.receive, List.map_append, List.map_cons, List.map_nil, List.sum_append,
              List.sum_cons, List.sum_nil] at hInit ⊢
            omega

/-- If a finished exchange leaves nothing unread, then at any earlier point
what the left side has read is a prefix of what the right side has sent, piece
by piece. -/
theorem Runs.read_prefix {Piece : Type} {size : Piece → Nat} {got : (Σ o, Ans o) → Option Piece}
    {put : (Σ o, Ans' o) → Option Piece}
    (hGot : ∀ {o l i r}, H.act o l i = some r → ((got ⟨o, r.answer⟩).map size).getD 0 ≤ r.taken)
    (hPut : ∀ {o l i r}, H'.act o l i = some r →
      ((put ⟨o, r.answer⟩).map size).getD 0 = r.sent.length)
    {c d f : Pair Op Ans Op' Ans' Loc Loc' Byte α β} (hLeft : c.left.trace = [])
    (hInbox : c.left.inbox.data = []) (run : Runs H H' c d) (rest : Runs H H' d f)
    (hRead : f.left.trace.filterMap got = f.right.trace.filterMap put)
    (hPos : ∀ piece ∈ f.left.trace.filterMap got, 0 < size piece) :
    d.left.trace.filterMap got <+: d.right.trace.filterMap put := by
  have hSum : ∀ {Event : Type} (g : Event → Option Piece) (events : List Event),
      (events.map fun e => ((g e).map size).getD 0).sum = ((events.filterMap g).map size).sum := by
    intro Event g events
    induction events with
    | nil => rfl
    | cons e events ih => cases h : g e <;> simp [h, ih]
  have hCausal := run.causal (fun e => ((got e).map size).getD 0)
    (fun e => ((put e).map size).getD 0) hGot hPut (by simp [hLeft, hInbox])
  rw [hSum, hSum] at hCausal
  have hL : d.left.trace.filterMap got <+: f.left.trace.filterMap got := rest.trace.1.filterMap got
  have hR : d.right.trace.filterMap put <+: f.left.trace.filterMap got :=
    hRead ▸ rest.trace.2.filterMap put
  rcases List.prefix_or_prefix_of_prefix hL hR with h | ⟨extra, hExtra⟩
  · exact h
  · -- Pieces read beyond what was sent would have no bytes.
    rw [← hExtra, List.map_append, List.sum_append] at hCausal
    have hNil : extra = [] := by
      cases extra with
      | nil => rfl
      | cons piece extra =>
          have hPiece : 0 < size piece := hPos piece (hL.subset (by simp [← hExtra]))
          simp only [List.map_cons, List.sum_cons] at hCausal
          omega
    have hEq : d.left.trace.filterMap got = d.right.trace.filterMap put := by
      rw [← hExtra, hNil, List.append_nil]
    exact hEq ▸ List.prefix_rfl

/-- The same exchange with the sides named the other way round. -/
def swap (c : Pair Op Ans Op' Ans' Loc Loc' Byte α β) : Pair Op' Ans' Op Ans Loc' Loc Byte β α :=
  ⟨c.right, c.left⟩

/-- A run stays a run when the sides are named the other way round. -/
theorem Runs.swap {c d : Pair Op Ans Op' Ans' Loc Loc' Byte α β} (run : Runs H H' c d) :
    Runs H' H c.swap d.swap := by
  obtain ⟨n, hn⟩ := run
  induction hn with
  | zero c => exact .refl _
  | @succ n c d e first _ ih =>
      refine .head ?_ ih
      rcases first with h | h
      · refine Or.inr ?_
        simp only [stepLeft, stepRight, Option.map_eq_some_iff] at h ⊢
        obtain ⟨r, hr, rfl⟩ := h
        exact ⟨r, hr, rfl⟩
      · refine Or.inl ?_
        simp only [stepLeft, stepRight, Option.map_eq_some_iff] at h ⊢
        obtain ⟨r, hr, rfl⟩ := h
        exact ⟨r, hr, rfl⟩

end Pair
end Thread
