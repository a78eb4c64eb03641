import NoCapKVM.App.ClipboardPump

/-! Whether a content that the peer has sent is sent back to it. The echo is told by its bytes,
and the clipboard may give back other bytes than were written. -/
namespace NoCapKVM.App

open Clipboard Discovery

section Definitions

variable {ι : Type} (stb : Stb ι)

/-- What a read returns after a write of the content. -/
def readBack (platform : Platform) (content : ClipboardContent) : Option ClipboardContent :=
  match platform, content.type with
  | .windows, .jpeg => (stb.load content.data).bind (encodePicture stb)
  | _, _ => some content

/-- What the passes at these times send when no message comes in. -/
def sentLater : List Time → ClipboardState ι → List ClipboardContent
  | [], _ => []
  | now :: later, s =>
      let (s, content) := syncClipboard stb true none { now := now } s
      content.toList ++ sentLater later s

/-- What is sent from the pass on that takes over a message. -/
def sentBack (message : ClipboardMessage) (first : Time) (later : List Time) (s : ClipboardState ι) :
    List ClipboardContent :=
  let (s, content) := syncClipboard stb true (some message) { now := first } s
  content.toList ++ sentLater stb later s

end Definitions

variable {ι : Type} {stb : Stb ι}

theorem write_readBack {os : OsClipboard ι} (hLooked : os.Looked) {content r : ClipboardContent}
    (hBack : readBack stb os.platform content = some r) :
    (os.writeClipboard stb true content).readClipboard stb true = some r ∧
      (os.writeClipboard stb true content).clipboardChanged.1 = true := by
  obtain ⟨type, data⟩ := content
  unfold readBack at hBack
  unfold OsClipboard.writeClipboard
  cases hPlatform : os.platform with
  | x11 =>
      rw [hPlatform] at hBack
      exact ⟨hBack, OsClipboard.changed_copy hLooked _⟩
  | windows =>
      rw [hPlatform] at hBack
      cases type with
      | text => exact ⟨hBack, OsClipboard.changed_copy hLooked _⟩
      | jpeg =>
          obtain ⟨picture, hLoad, hEncode⟩ := Option.bind_eq_some_iff.mp hBack
          simp only [Bool.not_true, Bool.false_eq_true, if_false, hLoad]
          exact ⟨hEncode, OsClipboard.changed_copy hLooked _⟩

theorem sentLater_cons (now : Time) (later : List Time) (s : ClipboardState ι) :
    sentLater stb (now :: later) s = (pollClipboard stb { now := now } s).2.toList ++
      sentLater stb later (pollClipboard stb { now := now } s).1 :=
  rfl

/-- Nothing is sent once the clipboard holds what was seen last. -/
theorem sentLater_seen {times : List Time} {s : ClipboardState ι}
    (hSeen : s.os.readClipboard stb true = s.seen) : sentLater stb times s = [] := by
  induction times generalizing s with
  | nil => rfl
  | cons now later ih =>
      obtain ⟨hAfter, -, hContent⟩ := pollClipboard_spec stb { now := now } s
      have hFound : ∀ c, s.found stb { now := now } = some c → s.seen = some c := by
        intro c hFound
        exact hSeen ▸ found_shown hFound
      have hNothing : s.newContent stb { now := now } = none := by
        rw [ClipboardState.newContent, Option.filter_eq_none_iff]
        intro c hSome
        simp [hFound c hSome]
      rw [sentLater_cons, hContent, hNothing]
      apply ih
      rw [shown_pollClipboard, hAfter, hSeen]
      cases hPolled : s.found stb { now := now } with
      | none => rfl
      | some c => exact hFound c hPolled

/-- What was applied and is to be read as `r` is sent by the first poll that
is due, unless it is read as it was applied. -/
theorem sentLater_applied {times : List Time} {s : ClipboardState ι} {c r : ClipboardContent}
    (hRead : s.os.readClipboard stb true = some r) (hChanged : s.os.clipboardChanged.1 = true)
    (hSeen : s.seen = some c) (hApplied : s.applied = some c) :
    sentLater stb times s = [] ↔ r = c ∨ ∀ now ∈ times, now - s.clipboardLastCheck < kPollInterval := by
  induction times with
  | nil => simp [sentLater]
  | cons now later ih =>
      by_cases hDue : now - s.clipboardLastCheck < kPollInterval
      · have hThrottled : pollClipboard stb { now := now } s = (s, none) := if_pos hDue
        rw [sentLater_cons, hThrottled, List.forall_mem_cons, and_iff_right hDue]
        exact ih
      · have hFound : s.found stb { now := now } = some r := by
          unfold ClipboardState.found
          rw [if_neg (by simp [hDue, hChanged])]
          exact hRead
        by_cases hSame : r = c
        · subst hSame
          simp [sentLater_seen (hRead.trans hSeen.symm)]
        · have hNew : s.newContent stb { now := now } = some r := by
            rw [ClipboardState.newContent, hFound, hSeen, hApplied]
            simp [Option.filter_some, Ne.symm hSame]
          rw [sentLater_cons, (pollClipboard_spec stb { now := now } s).2.2, hNew]
          simp [hSame, hDue]

theorem sentBack_eq (message : ClipboardMessage) (first : Time) (later : List Time) (s : ClipboardState ι) :
    sentBack stb message first later s =
      sentLater stb (first :: later) (applyAndTrack stb { now := first } (received message) s) :=
  rfl

/-- Nothing is sent back exactly if the content is read as it was written, or
no poll is due. -/
theorem not_echoed_iff (s : ClipboardState ι) (hLooked : s.os.Looked) (message : ClipboardMessage)
    (r : ClipboardContent) (hBack : readBack stb s.os.platform (received message) = some r)
    (first : Time) (later : List Time) :
    sentBack stb message first later s = [] ↔
      r = received message ∨ ∀ now ∈ first :: later, now - s.clipboardLastCheck < kPollInterval := by
  obtain ⟨hRead, hChanged⟩ := write_readBack hLooked hBack
  rw [sentBack_eq]
  exact sentLater_applied hRead hChanged rfl rfl

/-- A codec that makes the same file of every picture. -/
def oneFile : Stb Unit :=
  ⟨fun _ => some (), fun _ _ => some [0xFF]⟩

def onWindows : ClipboardState Unit :=
  { os := { platform := .windows } }

theorem readBack_oneFile : readBack oneFile .windows ⟨.jpeg, [0xD8]⟩ = some ⟨.jpeg, [0xFF]⟩ := by
  change encodePicture oneFile () = _
  simp [encodePicture, oneFile, encodeJpeg, kJpegQuality, kMaxJpegBytes]

theorem not_echoed_iff_recoded :
    sentBack oneFile ⟨.jpeg, [0xD8]⟩ (seconds 1) [] onWindows = [] ↔
      (⟨.jpeg, [0xFF]⟩ : ClipboardContent) = received ⟨.jpeg, [0xD8]⟩ ∨
        ∀ now ∈ [seconds 1], now - onWindows.clipboardLastCheck < kPollInterval :=
  not_echoed_iff onWindows nofun ⟨.jpeg, [0xD8]⟩ ⟨.jpeg, [0xFF]⟩ readBack_oneFile (seconds 1) []

/-- The picture is read as another file than was received, which
is sent back. -/
theorem picture_echoed :
    ¬∀ (ι : Type) (stb : Stb ι) (s : ClipboardState ι), s.os.Looked → ∀ message r,
      readBack stb s.os.platform (received message) = some r →
      ∀ first later, sentBack stb message first later s = [] := by
  intro hNothing
  have hEcho := hNothing Unit oneFile onWindows nofun ⟨.jpeg, [0xD8]⟩ ⟨.jpeg, [0xFF]⟩ readBack_oneFile (seconds 1) []
  have hSame : sentLater oneFile [seconds 1] (applyAndTrack oneFile { now := seconds 1 } ⟨.jpeg, [0xD8]⟩ onWindows) =
      [] ↔ _ := sentLater_applied readBack_oneFile rfl rfl rfl
  rcases hSame.mp hEcho with hSame | hDue
  · cases hSame
  · exact absurd (hDue (seconds 1) (.head [])) (by decide)

end NoCapKVM.App
