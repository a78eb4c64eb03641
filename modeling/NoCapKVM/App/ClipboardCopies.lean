import NoCapKVM.App.ClipboardConvergence
import NoCapKVM.App.ClipboardEcho

/-! Whether every content that is copied on a machine reaches its peer. What the passes of one
connection remember is held against what the two machines have exchanged on it. -/
namespace NoCapKVM.App

open Clipboard Discovery

/-- Another program copies something, or `sync_clipboard` runs with what has
arrived. -/
inductive CopyMove (ι : Type) where
  | copied (held : Held ι)
  | passed (pending : Option ClipboardMessage) (f : ClipboardFrame)

section Run

variable {ι : Type} (stb : Stb ι) (start : ClipboardState ι)

/-- One connection, newest move first. The passes before it have forgotten
everything. -/
def copyRun : List (CopyMove ι) → ClipboardState ι
  | [] => forgetClipboard start
  | .copied held :: past => { copyRun past with os := (copyRun past).os.copy held }
  | .passed pending f :: past => (syncClipboard stb true pending f (copyRun past)).1

/-- The state in which a pass reads the clipboard. -/
def taking (past : List (CopyMove ι)) (pending : Option ClipboardMessage) (f : ClipboardFrame) : ClipboardState ι :=
  applyPending stb f pending (copyRun stb start past)

/-- The content that was applied last. -/
def lastApplied : List (CopyMove ι) → Option ClipboardContent
  | [] => none
  | .copied _ :: past => lastApplied past
  | .passed pending _ :: past => (pending.map received).or (lastApplied past)

/-- The content that was applied or sent last. The sends succeed. -/
def lastExchanged : List (CopyMove ι) → Option ClipboardContent
  | [] => none
  | .copied _ :: past => lastExchanged past
  | .passed pending f :: past =>
      (syncClipboard stb true pending f (copyRun stb start past)).2.or
        ((pending.map received).or (lastExchanged past))

/-- A pass sends what it reads, unless that is what was exchanged last. -/
def SendsCopy (past : List (CopyMove ι)) (pending : Option ClipboardMessage) (f : ClipboardFrame) : Prop :=
  ∀ c, (taking stb start past pending f).found stb f = some c →
    (pending.map received).or (lastExchanged stb start past) ≠ some c →
    (syncClipboard stb true pending f (copyRun stb start past)).2 = some c

/-- What a pass reads was applied last, and another content was sent since. -/
def ReadsStale (past : List (CopyMove ι)) (pending : Option ClipboardMessage) (f : ClipboardFrame) : Prop :=
  ∃ c, (taking stb start past pending f).found stb f = some c ∧
    (pending.map received).or (lastApplied past) = some c ∧
    (pending.map received).or (lastExchanged stb start past) ≠ some c

def EachPass (P : List (CopyMove ι) → Option ClipboardMessage → ClipboardFrame → Prop) : List (CopyMove ι) → Prop
  | [] => True
  | .copied _ :: past => EachPass P past
  | .passed pending f :: past => P past pending f ∧ EachPass P past

end Run

variable {ι : Type} {stb : Stb ι} {start : ClipboardState ι}

variable (stb) in
theorem applyPending_remembers (f : ClipboardFrame) (pending : Option ClipboardMessage) (s : ClipboardState ι) :
    (applyPending stb f pending s).seen = (pending.map received).or s.seen ∧
      (applyPending stb f pending s).applied = (pending.map received).or s.applied := by
  cases pending <;> exact ⟨rfl, rfl⟩

theorem applied_copyRun (moves : List (CopyMove ι)) : (copyRun stb start moves).applied = lastApplied moves := by
  induction moves with
  | nil => rfl
  | cons move past ih =>
      cases move with
      | copied held => exact ih
      | passed pending f =>
          have hPoll := (pollClipboard_spec stb f (taking stb start past pending f)).2.1
          rw [lastApplied, ← ih, ← (applyPending_remembers stb f pending (copyRun stb start past)).2]
          exact hPoll

/-- A pass sends what it reads just if that was neither seen nor
applied last. -/
theorem syncClipboard_sends (past : List (CopyMove ι)) (pending : Option ClipboardMessage) (f : ClipboardFrame) :
    (syncClipboard stb true pending f (copyRun stb start past)).2 = (taking stb start past pending f).newContent stb f :=
  (pollClipboard_spec stb f (taking stb start past pending f)).2.2

theorem applied_taking (past : List (CopyMove ι)) (pending : Option ClipboardMessage) (f : ClipboardFrame) :
    (taking stb start past pending f).applied = (pending.map received).or (lastApplied past) := by
  rw [← applied_copyRun past]
  exact (applyPending_remembers stb f pending (copyRun stb start past)).2

theorem sendsCopy_of_fresh {past : List (CopyMove ι)} {pending : Option ClipboardMessage} {f : ClipboardFrame}
    (hSeen : (copyRun stb start past).seen = lastExchanged stb start past)
    (hFresh : ¬ReadsStale stb start past pending f) : SendsCopy stb start past pending f := by
  intro c hFound hOther
  have hApplied : (taking stb start past pending f).applied ≠ some c := by
    rw [applied_taking]
    exact fun hApplied => hFresh ⟨c, hFound, hApplied, hOther⟩
  have hNew : (taking stb start past pending f).seen ≠ some c := by
    rw [taking, (applyPending_remembers stb f pending (copyRun stb start past)).1, hSeen]
    exact hOther
  rw [syncClipboard_sends, ClipboardState.newContent, hFound]
  simp [Option.filter_some, hNew, hApplied]

/-- As long as every copy is sent, what was seen last is what was
exchanged last. -/
theorem seen_passed {past : List (CopyMove ι)} {pending : Option ClipboardMessage} {f : ClipboardFrame}
    (hSeen : (copyRun stb start past).seen = lastExchanged stb start past)
    (hSends : SendsCopy stb start past pending f) :
    (copyRun stb start (.passed pending f :: past)).seen = lastExchanged stb start (.passed pending f :: past) := by
  have hRemembers := (applyPending_remembers stb f pending (copyRun stb start past)).1
  have hAfter : (copyRun stb start (.passed pending f :: past)).seen =
      ((taking stb start past pending f).found stb f).or ((pending.map received).or (lastExchanged stb start past)) := by
    rw [← hSeen, ← hRemembers]
    exact (pollClipboard_spec stb f (taking stb start past pending f)).1
  rw [hAfter, lastExchanged]
  cases hFound : (taking stb start past pending f).found stb f with
  | none =>
      rw [syncClipboard_sends, ClipboardState.newContent, hFound]
      rfl
  | some c =>
      by_cases hSame : (pending.map received).or (lastExchanged stb start past) = some c
      · have hSkipped : (taking stb start past pending f).seen = some c := by
          rw [taking, hRemembers, hSeen, hSame]
        rw [syncClipboard_sends, ClipboardState.newContent, hFound, hSame]
        simp [Option.filter_some, hSkipped]
      · rw [hSends c hFound hSame, Option.some_or]

theorem seen_copyRun {moves : List (CopyMove ι)} (hSends : EachPass (SendsCopy stb start) moves) :
    (copyRun stb start moves).seen = lastExchanged stb start moves := by
  induction moves with
  | nil => rfl
  | cons move past ih =>
      cases move with
      | copied held => exact ih hSends
      | passed pending f => exact seen_passed (ih hSends.2) hSends.1

theorem fresh_of_sendsCopy {past : List (CopyMove ι)} {pending : Option ClipboardMessage} {f : ClipboardFrame}
    (hSends : SendsCopy stb start past pending f) : ¬ReadsStale stb start past pending f := by
  rintro ⟨c, hFound, hApplied, hOther⟩
  have hSent := hSends c hFound hOther
  have hTaking : (taking stb start past pending f).applied = some c := by
    rw [applied_taking]
    exact hApplied
  rw [syncClipboard_sends, ClipboardState.newContent, hFound] at hSent
  simp [Option.filter_some, hTaking] at hSent

/-- Every copy is sent just if no pass reads what was applied last after
another content was sent. -/
theorem copies_sent_iff (stb : Stb ι) (start : ClipboardState ι) (moves : List (CopyMove ι)) :
    EachPass (SendsCopy stb start) moves ↔
      EachPass (fun past pending f => ¬ReadsStale stb start past pending f) moves := by
  induction moves with
  | nil => exact Iff.rfl
  | cons move past ih =>
      cases move with
      | copied held => exact ih
      | passed pending f =>
          constructor
          · intro hSends
            exact ⟨fresh_of_sendsCopy hSends.1, ih.mp hSends.2⟩
          · intro hFresh
            have hSends := ih.mpr hFresh.2
            exact ⟨sendsCopy_of_fresh (seen_copyRun hSends) hFresh.1, hSends⟩

/-- A text comes from the peer, another one is copied and sent, and the first
is copied again. -/
def copiedAgain : List (CopyMove Unit) :=
  [.passed none { now := seconds 3 }, .copied (.text [97]), .passed none { now := seconds 2 }, .copied (.text [98]),
    .passed (some ⟨.text, [97]⟩) { now := seconds 1 }]

/-- The first text is not sent, though the peer has the other one. -/
theorem copy_swallowed :
    ¬∀ (start : ClipboardState Unit) (moves : List (CopyMove Unit)), Faithful start.os →
      (∀ held, .copied held ∈ moves → ∃ utf8, held = .text utf8) →
      (∀ message f, .passed (some message) f ∈ moves → message.type = .text) →
      EachPass (SendsCopy noPictures start) moves := by
  intro hSent
  have hSends := hSent onWindows copiedAgain ⟨trivial, nofun⟩ ?_ ?_
  · have hLast := hSends.1 ⟨.text, [97]⟩ (by decide +kernel) (by decide +kernel)
    revert hLast
    decide +kernel
  · intro held hMem
    simp [copiedAgain] at hMem
    rcases hMem with rfl | rfl
    · exact ⟨_, rfl⟩
    · exact ⟨_, rfl⟩
  · intro message f hMem
    simp [copiedAgain] at hMem
    rw [hMem.1]

end NoCapKVM.App
