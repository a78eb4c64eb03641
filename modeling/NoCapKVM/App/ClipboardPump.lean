import NoCapKVM.Clipboard.OsClipboard
import NoCapKVM.Discovery.Operations

/-! `app/clipboard_pump.cpp`: how the clipboards of two connected machines follow each
other. -/
namespace NoCapKVM.App

open Clipboard Discovery

def kPollInterval : Time := seconds 1

/-- The clipboard of the machine, and the parts of `AppState`
that follow it. -/
structure ClipboardState (ι : Type) where
  os : OsClipboard ι
  clipboardLastSeenValid : Bool := false
  clipboardLastSeen : ClipboardContent := {}
  clipboardLastAppliedValid : Bool := false
  clipboardLastApplied : ClipboardContent := {}
  clipboardLastCheck : Time := 0

/-- What a pass reads from outside: the clock, and whether the system opens
its clipboard for the write and for the read. -/
structure ClipboardFrame where
  now : Time
  writable : Bool := true
  readable : Bool := true

section Pass

variable {ι : Type} (stb : Stb ι)

def applyAndTrack (f : ClipboardFrame) (content : ClipboardContent) (state : ClipboardState ι) : ClipboardState ι :=
  { state with
    os := state.os.writeClipboard stb f.writable content
    clipboardLastApplied := content
    clipboardLastAppliedValid := true
    clipboardLastSeen := content
    clipboardLastSeenValid := true }

def received (message : ClipboardMessage) : ClipboardContent where
  type := match message.type with
    | .text => .text
    | .jpeg => .jpeg
  data := message.data

/-- `if (take_pending(msg)) { ... }` -/
def applyPending (f : ClipboardFrame) : Option ClipboardMessage → ClipboardState ι → ClipboardState ι
  | some message, state => applyAndTrack stb f (received message) state
  | none, state => state

/-- What a pass makes of the content that it reads. It is to be sent if it is
new, and not just what the program has written itself. -/
def noteContent (current : ClipboardContent) (state : ClipboardState ι) :
    ClipboardState ι × Option ClipboardContent :=
  if state.clipboardLastSeenValid && current = state.clipboardLastSeen then (state, none)
  else
    let state := { state with clipboardLastSeen := current, clipboardLastSeenValid := true }
    if state.clipboardLastAppliedValid && current = state.clipboardLastApplied then (state, none)
    else (state, some current)

/-- From the end of the throttle on. -/
def lookAtClipboard (f : ClipboardFrame) (state : ClipboardState ι) : ClipboardState ι × Option ClipboardContent :=
  let changed := state.os.clipboardChanged
  let state := { state with clipboardLastCheck := f.now, os := changed.2 }
  if !changed.1 then (state, none)
  else match state.os.readClipboard stb f.readable with
    | none => (state, none)
    | some current => noteContent current state

/-- The rest of a pass once a pending message is dealt with. -/
def pollClipboard (f : ClipboardFrame) (state : ClipboardState ι) : ClipboardState ι × Option ClipboardContent :=
  if f.now - state.clipboardLastCheck < kPollInterval then (state, none)
  else lookAtClipboard stb f state

def forgetClipboard (state : ClipboardState ι) : ClipboardState ι :=
  { state with clipboardLastSeenValid := false, clipboardLastAppliedValid := false }

/-- `sync_clipboard`. `pending` is what `take_pending` has handed over, and
the result what is passed to `send`. -/
def syncClipboard (connected : Bool) (pending : Option ClipboardMessage) (f : ClipboardFrame)
    (state : ClipboardState ι) : ClipboardState ι × Option ClipboardContent :=
  if !connected then (forgetClipboard state, none)
  else pollClipboard stb f (applyPending stb f pending state)

end Pass

def clipboardMsgType (content : ClipboardContent) : UInt8 :=
  match content.type with
  | .text => kMsgClipboardText
  | .jpeg => kMsgClipboardImage

namespace ClipboardState

variable {ι : Type} (stb : Stb ι)

def seen (s : ClipboardState ι) : Option ClipboardContent :=
  if s.clipboardLastSeenValid then some s.clipboardLastSeen else none

def applied (s : ClipboardState ι) : Option ClipboardContent :=
  if s.clipboardLastAppliedValid then some s.clipboardLastApplied else none

/-- What a pass reads: nothing unless a poll is due and the clipboard has
changed. -/
def found (f : ClipboardFrame) (s : ClipboardState ι) : Option ClipboardContent :=
  if f.now - s.clipboardLastCheck < kPollInterval ∨ s.os.clipboardChanged.1 = false then none
  else s.os.readClipboard stb f.readable

/-- What it reads is new if it is neither what was seen last nor what was
applied last. -/
def newContent (f : ClipboardFrame) (s : ClipboardState ι) : Option ClipboardContent :=
  (s.found stb f).filter fun c => s.seen ≠ some c ∧ s.applied ≠ some c

variable {stb}

theorem seen_eq (s : ClipboardState ι) (c : ClipboardContent) :
    (s.clipboardLastSeenValid && c = s.clipboardLastSeen) = true ↔ s.seen = some c := by
  unfold seen
  cases s.clipboardLastSeenValid <;> simp [eq_comm]

theorem applied_eq (s : ClipboardState ι) (c : ClipboardContent) :
    (s.clipboardLastAppliedValid && c = s.clipboardLastApplied) = true ↔ s.applied = some c := by
  unfold applied
  cases s.clipboardLastAppliedValid <;> simp [eq_comm]

end ClipboardState

section Spec

variable {ι : Type} {stb : Stb ι} (f : ClipboardFrame) (s : ClipboardState ι)

theorem readClipboard_changed (os : OsClipboard ι) (opened : Bool) :
    os.clipboardChanged.2.readClipboard stb opened = os.readClipboard stb opened := by
  unfold OsClipboard.clipboardChanged
  cases os.platform <;> rfl

theorem noteContent_spec (c : ClipboardContent) : (noteContent c s).1.seen = some c ∧
    (noteContent c s).1.applied = s.applied ∧
    (noteContent c s).2 = (some c).filter fun c => s.seen ≠ some c ∧ s.applied ≠ some c := by
  unfold noteContent
  by_cases hSeen : s.seen = some c
  · rw [if_pos ((s.seen_eq c).mpr hSeen)]
    exact ⟨hSeen, rfl, by simp [Option.filter_some, hSeen]⟩
  · rw [if_neg fun h => hSeen ((s.seen_eq c).mp h)]
    by_cases hApplied : s.applied = some c
    · simp only [if_pos ((s.applied_eq c).mpr hApplied)]
      exact ⟨rfl, rfl, by simp [Option.filter_some, hApplied]⟩
    · simp only [if_neg fun h => hApplied ((s.applied_eq c).mp h)]
      exact ⟨rfl, rfl, by simp [Option.filter_some, hSeen, hApplied]⟩

variable (stb) in
/-- A pass remembers what it has read, and hands over what is new in it. -/
theorem pollClipboard_spec : (pollClipboard stb f s).1.seen = (s.found stb f).or s.seen ∧
    (pollClipboard stb f s).1.applied = s.applied ∧ (pollClipboard stb f s).2 = s.newContent stb f := by
  unfold pollClipboard ClipboardState.newContent ClipboardState.found
  by_cases hDue : f.now - s.clipboardLastCheck < kPollInterval
  · rw [if_pos hDue, if_pos (.inl hDue)]
    exact ⟨rfl, rfl, rfl⟩
  · unfold lookAtClipboard
    simp only [hDue, false_or, if_false]
    cases hChanged : s.os.clipboardChanged.1 with
    | false => exact ⟨rfl, rfl, rfl⟩
    | true =>
        simp only [Bool.not_true, Bool.false_eq_true, Bool.true_eq_false, if_false, readClipboard_changed]
        cases s.os.readClipboard stb f.readable with
        | none => exact ⟨rfl, rfl, rfl⟩
        | some c =>
            exact noteContent_spec { s with clipboardLastCheck := f.now, os := s.os.clipboardChanged.2 } c

theorem pollClipboard_os : (pollClipboard stb f s).1.os =
    if f.now - s.clipboardLastCheck < kPollInterval then s.os else s.os.clipboardChanged.2 := by
  unfold pollClipboard
  split
  · rfl
  · unfold lookAtClipboard
    dsimp only
    split
    · rfl
    · split
      · rfl
      · unfold noteContent
        split
        · rfl
        · dsimp only
          split <;> rfl

theorem shown_pollClipboard :
    (pollClipboard stb f s).1.os.readClipboard stb true = s.os.readClipboard stb true := by
  rw [pollClipboard_os]
  split
  · rfl
  · exact readClipboard_changed s.os true

theorem found_shown {s : ClipboardState ι} {now : Time} {c : ClipboardContent}
    (h : s.found stb { now := now } = some c) : s.os.readClipboard stb true = some c := by
  unfold ClipboardState.found at h
  split at h
  · cases h
  · exact h

end Spec
end NoCapKVM.App
