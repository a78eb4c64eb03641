import NoCapKVM.App.ClipboardCopies

/-! What becomes of a copy when the system does not open its clipboard. The check for a
change is done before the read, and is not taken back when the read fails. -/
namespace NoCapKVM.App

open Clipboard Discovery

section Definitions

variable {ι : Type} (stb : Stb ι) (start : ClipboardState ι)

/-- The throttle is over. -/
def Polls (before : List (CopyMove ι)) (f : ClipboardFrame) : Prop :=
  ¬ f.now - (copyRun stb start before).clipboardLastCheck < kPollInterval

/-- The pass leaves the content on the clipboard as it is, and the peer does
not send the same one. -/
structure Stays (c : ClipboardContent) (before : List (CopyMove ι)) (pending : Option ClipboardMessage)
    (f : ClipboardFrame) : Prop where
  kept : (taking stb start before pending f).os = (copyRun stb start before).os
  other : pending.map received ≠ some c

abbrev Pass := Option ClipboardMessage × ClipboardFrame

/-- The passes since, the last one first. -/
def after (past : List (CopyMove ι)) (passes : List Pass) : List (CopyMove ι) :=
  passes.map (fun p => .passed p.1 p.2) ++ past

/-- `P` holds of each pass and the moves before it. -/
def EachSince (P : List (CopyMove ι) → Pass → Prop) (past : List (CopyMove ι)) : List Pass → Prop
  | [] => True
  | p :: earlier => P (after past earlier) p ∧ EachSince P past earlier

/-- The content stays on the clipboard, and no poll can read it. -/
def Waits (c : ClipboardContent) (before : List (CopyMove ι)) (p : Pass) : Prop :=
  Stays stb start c before p.1 p.2 ∧ (Polls stb start before p.2 → p.2.readable = false)

end Definitions

variable {ι : Type} {stb : Stb ι} {start : ClipboardState ι}

/-- What a copy, a write and a look at the sequence number keep,
a run keeps. -/
theorem os_copyRun {I : OsClipboard ι → Prop} (hStart : I start.os) (hCopy : ∀ os held, I os → I (os.copy held))
    (hWrite : ∀ os opened content, I os → I (os.writeClipboard stb opened content))
    (hLook : ∀ os, I os → I os.clipboardChanged.2) (moves : List (CopyMove ι)) : I (copyRun stb start moves).os := by
  induction moves with
  | nil => exact hStart
  | cons move past ih =>
      cases move with
      | copied held => exact hCopy _ held ih
      | passed pending f =>
          have hTaking : I (taking stb start past pending f).os := by
            cases pending with
            | none => exact ih
            | some message => exact hWrite _ _ _ ih
          change I (pollClipboard stb f (taking stb start past pending f)).1.os
          rw [pollClipboard_os]
          split
          · exact hTaking
          · exact hLook _ hTaking

theorem looked_write {os : OsClipboard ι} (hLooked : os.Looked) (opened : Bool) (content : ClipboardContent) :
    (os.writeClipboard stb opened content).Looked := by
  unfold OsClipboard.writeClipboard
  split
  · exact hLooked
  · split
    · exact OsClipboard.looked_copy hLooked _
    · exact OsClipboard.looked_copy hLooked _
    · split
      · exact OsClipboard.looked_copy hLooked _
      · exact hLooked

theorem looked_changed {os : OsClipboard ι} (hLooked : os.Looked) : os.clipboardChanged.2.Looked := by
  unfold OsClipboard.clipboardChanged
  cases os.platform with
  | x11 => exact hLooked
  | windows =>
      intro n hSeq
      exact le_of_eq (Option.some.inj hSeq).symm

/-- A clipboard that was looked at stays so after any moves. -/
theorem looked_copyRun (hLooked : start.os.Looked) (moves : List (CopyMove ι)) :
    (copyRun stb start moves).os.Looked := by
  apply os_copyRun hLooked
  · exact fun os held h => OsClipboard.looked_copy h held
  · exact fun os opened content h => looked_write h opened content
  · exact fun os h => looked_changed h

/-- One look is enough for the next one to find no change. -/
theorem changed_changed {os : OsClipboard ι} (hPlatform : os.platform = .windows) :
    os.clipboardChanged.2.clipboardChanged.1 = false := by
  simp [OsClipboard.clipboardChanged, hPlatform]

theorem platform_changed (os : OsClipboard ι) : os.clipboardChanged.2.platform = os.platform := by
  unfold OsClipboard.clipboardChanged
  cases hPlatform : os.platform with
  | x11 => exact hPlatform
  | windows => rfl

theorem platform_write (os : OsClipboard ι) (opened : Bool) (content : ClipboardContent) :
    (os.writeClipboard stb opened content).platform = os.platform := by
  unfold OsClipboard.writeClipboard
  split
  · rfl
  · split
    · rfl
    · rfl
    · split <;> rfl

/-- The platform of a clipboard is the same after any moves. -/
theorem platform_copyRun (moves : List (CopyMove ι)) : (copyRun stb start moves).os.platform = start.os.platform := by
  apply os_copyRun (I := fun os => os.platform = start.os.platform) rfl
  · exact fun os held h => h
  · exact fun os opened content h => (platform_write os opened content).trans h
  · exact fun os h => (platform_changed os).trans h

/-- The clipboard holds the copy, and neither has it been read nor has the
peer sent it. -/
structure Unsent (stb : Stb ι) (c : ClipboardContent) (s : ClipboardState ι) : Prop where
  holds : s.os.readClipboard stb true = some c
  unseen : s.seen ≠ some c
  unapplied : s.applied ≠ some c

variable {c : ClipboardContent} {before : List (CopyMove ι)}

/-- Of two contents that differ from a third, the one that is left differs
from it too. -/
theorem or_ne {a b : Option ClipboardContent} (hLeft : a ≠ some c) (hRight : b ≠ some c) : a.or b ≠ some c := by
  cases a with
  | none => exact hRight
  | some _ => exact hLeft

/-- A pass that leaves the content where it is leaves the copy
unread and unsent. -/
theorem unsent_taking {pending : Option ClipboardMessage} {f : ClipboardFrame}
    (h : Unsent stb c (copyRun stb start before)) (hStays : Stays stb start c before pending f) :
    Unsent stb c (taking stb start before pending f) := by
  obtain ⟨hSeen, hApplied⟩ := applyPending_remembers stb f pending (copyRun stb start before)
  refine ⟨?_, ?_, ?_⟩
  · rw [hStays.kept]
    exact h.holds
  · exact hSeen ▸ or_ne hStays.other h.unseen
  · exact hApplied ▸ or_ne hStays.other h.unapplied

/-- Taking the pending message does not count as a check. -/
theorem lastCheck_taking (pending : Option ClipboardMessage) (f : ClipboardFrame) :
    (taking stb start before pending f).clipboardLastCheck = (copyRun stb start before).clipboardLastCheck := by
  cases pending <;> rfl

/-- A pass that cannot read finds nothing. -/
theorem found_unreadable {p : Pass} (hFails : Polls stb start before p.2 → p.2.readable = false) :
    (taking stb start before p.1 p.2).found stb p.2 = none := by
  unfold ClipboardState.found
  split
  · rfl
  · rename_i hDue
    rw [not_or, lastCheck_taking] at hDue
    rw [hFails hDue.1]
    rfl

/-- Such a pass leaves the copy unsent, and the change is still to be found
only if the pass was no poll. -/
theorem unsent_passed {p : Pass} (hPlatform : start.os.platform = .windows)
    (h : Unsent stb c (copyRun stb start before)) (hWaits : Waits stb start c before p) :
    Unsent stb c (copyRun stb start (.passed p.1 p.2 :: before)) ∧
      ((copyRun stb start (.passed p.1 p.2 :: before)).os.clipboardChanged.1 = true ↔
        ¬ Polls stb start before p.2 ∧ (copyRun stb start before).os.clipboardChanged.1 = true) := by
  have hTaking := unsent_taking h hWaits.1
  have hFound := found_unreadable hWaits.2
  obtain ⟨hSeen, hApplied, -⟩ := pollClipboard_spec stb p.2 (taking stb start before p.1 p.2)
  have hOs := @pollClipboard_os ι stb p.2 (taking stb start before p.1 p.2)
  have hShown := @shown_pollClipboard ι stb p.2 (taking stb start before p.1 p.2)
  rw [hFound, Option.none_or] at hSeen
  rw [lastCheck_taking, hWaits.1.kept] at hOs
  constructor
  · exact ⟨hShown.trans hTaking.holds, hSeen ▸ hTaking.unseen, hApplied ▸ hTaking.unapplied⟩
  · change (pollClipboard stb p.2 (taking stb start before p.1 p.2)).1.os.clipboardChanged.1 = true ↔ _
    rw [hOs]
    by_cases hDue : Polls stb start before p.2
    · rw [if_neg hDue, changed_changed ((platform_copyRun before).trans hPlatform)]
      exact iff_of_false nofun (fun h => h.1 hDue)
    · rw [if_pos (not_not.mp hDue)]
      exact (and_iff_right hDue).symm

/-- While it waits, the change is still to be found just as long as there has
been no poll. -/
theorem unsent_after {past : List (CopyMove ι)} {waiting : List Pass} (hPlatform : start.os.platform = .windows)
    (hCopied : Unsent stb c (copyRun stb start past)) (hChanged : (copyRun stb start past).os.clipboardChanged.1 = true)
    (hWaiting : EachSince (Waits stb start c) past waiting) :
    Unsent stb c (copyRun stb start (after past waiting)) ∧
      ((copyRun stb start (after past waiting)).os.clipboardChanged.1 = true ↔
        EachSince (fun before p => ¬ Polls stb start before p.2) past waiting) := by
  induction waiting with
  | nil => exact ⟨hCopied, iff_of_true hChanged trivial⟩
  | cons p earlier ih =>
      obtain ⟨hUnsent, hStill⟩ := ih hWaiting.2
      obtain ⟨hPassed, hNext⟩ := unsent_passed hPlatform hUnsent hWaiting.1
      exact ⟨hPassed, hNext.trans (and_congr_right fun _ => hStill)⟩

/-- A poll that can read sends the copy just if the change is still
to be found. -/
theorem sends_iff_changed {pending : Option ClipboardMessage} {f : ClipboardFrame}
    (h : Unsent stb c (copyRun stb start before)) (hStays : Stays stb start c before pending f)
    (hPolls : Polls stb start before f) (hReadable : f.readable = true) :
    (syncClipboard stb true pending f (copyRun stb start before)).2 = some c ↔
      (copyRun stb start before).os.clipboardChanged.1 = true := by
  have hTaking := unsent_taking h hStays
  rw [syncClipboard_sends]
  unfold ClipboardState.newContent ClipboardState.found
  rw [lastCheck_taking, hStays.kept]
  cases hChanged : (copyRun stb start before).os.clipboardChanged.1 with
  | false => simp
  | true =>
      rw [if_neg (not_or.mpr ⟨hPolls, nofun⟩), hReadable, h.holds]
      simp [hTaking.unseen, hTaking.unapplied]

/-- A copy is sent at the first poll that can read it just if that is the
first poll since the copy. -/
theorem retried_iff (hPlatform : start.os.platform = .windows) (hLooked : start.os.Looked)
    (past : List (CopyMove ι)) {held : Held ι} {c : ClipboardContent}
    (hHeld : ((copyRun stb start past).os.copy held).readClipboard stb true = some c)
    (hUnseen : (copyRun stb start past).seen ≠ some c) (hUnapplied : (copyRun stb start past).applied ≠ some c)
    {waiting : List Pass} (hWaiting : EachSince (Waits stb start c) (.copied held :: past) waiting)
    {pending : Option ClipboardMessage} {f : ClipboardFrame}
    (hStays : Stays stb start c (after (.copied held :: past) waiting) pending f)
    (hPolls : Polls stb start (after (.copied held :: past) waiting) f) (hReadable : f.readable = true) :
    (syncClipboard stb true pending f (copyRun stb start (after (.copied held :: past) waiting))).2 = some c ↔
      EachSince (fun before p => ¬ Polls stb start before p.2) (.copied held :: past) waiting := by
  have hCopied : Unsent stb c (copyRun stb start (.copied held :: past)) := ⟨hHeld, hUnseen, hUnapplied⟩
  have hChanged := OsClipboard.changed_copy (@looked_copyRun ι stb start hLooked past) held
  obtain ⟨hUnsent, hStill⟩ := unsent_after hPlatform hCopied hChanged hWaiting
  exact (sends_iff_changed hUnsent hStays hPolls hReadable).trans hStill

def textCopied : List (CopyMove Unit) := [.copied (.text [97])]

def throttledPass : Pass := (none, { now := 0, readable := false })

def failedPoll : Pass := (none, { now := seconds 1, readable := false })

/-- A pass during the throttle does no harm. -/
theorem retried_after_throttle :
    (syncClipboard noPictures true none { now := seconds 2 }
      (copyRun noPictures onWindows (after textCopied [throttledPass]))).2 = some ⟨.text, [97]⟩ := by
  have hLooked : onWindows.os.Looked := nofun
  have hThrottled : ¬ Polls noPictures onWindows textCopied throttledPass.2 := not_not.mpr (by decide)
  have hPolls : Polls noPictures onWindows (after textCopied [throttledPass]) { now := seconds 2 } := by
    unfold Polls
    decide
  have hWaiting : EachSince (Waits noPictures onWindows ⟨.text, [97]⟩) textCopied [throttledPass] :=
    ⟨⟨⟨rfl, nofun⟩, fun _ => rfl⟩, trivial⟩
  have hStays : Stays noPictures onWindows ⟨.text, [97]⟩ (after textCopied [throttledPass]) none
      { now := seconds 2 } := ⟨rfl, nofun⟩
  exact (retried_iff rfl hLooked [] rfl (by decide) (by decide) hWaiting hStays hPolls rfl).mpr ⟨hThrottled, trivial⟩

/-- The clipboard does not open at the first poll. At the second one the copy
is not looked for again. -/
theorem failed_read_forgets :
    EachSince (Waits noPictures onWindows ⟨.text, [97]⟩) textCopied [failedPoll] ∧
      Polls noPictures onWindows (after textCopied [failedPoll]) { now := seconds 2 } ∧
      (copyRun noPictures onWindows (after textCopied [failedPoll])).os.readClipboard noPictures true =
        some ⟨.text, [97]⟩ ∧
      (syncClipboard noPictures true none { now := seconds 2 }
        (copyRun noPictures onWindows (after textCopied [failedPoll]))).2 = none := by
  refine ⟨⟨⟨⟨rfl, nofun⟩, fun _ => rfl⟩, trivial⟩, ?_, rfl, by decide⟩
  unfold Polls
  decide

end NoCapKVM.App
