import NoCapKVM.Clipboard.JpegCodec

/-! `clipboard.cpp`: reading and writing the clipboard of the system, on Windows and on
X11. Text comes back as it was written. A picture is kept in decoded form on Windows. -/
namespace NoCapKVM.Clipboard

inductive ContentType where
  | text
  | jpeg
  deriving DecidableEq

structure ClipboardContent where
  type : ContentType := .text
  data : List UInt8 := []
  deriving DecidableEq

/-- stb_image and stb_image_write on pictures of type `ι`: how a file is
decoded, and what becomes of a picture under a quality. -/
structure Stb (ι : Type) where
  load : List UInt8 → Option ι
  write : ι → Nat → Option (List UInt8)

inductive Platform where
  | windows
  | x11
  deriving DecidableEq

/-- What the clipboard holds. On X11 the program offers `wire` itself while it
owns the selection. -/
inductive Held (ι : Type) where
  | empty
  | text (utf8 : List UInt8)
  | image (picture : ι)
  | offered (wire : ClipboardContent)

/-- `sequence` is the sequence number that Windows keeps of its clipboard,
which is taken never to repeat, and `lastSeq` the static variable of
`clipboard_changed`. -/
structure OsClipboard (ι : Type) where
  platform : Platform
  held : Held ι := .empty
  sequence : Nat := 0
  lastSeq : Option Nat := none

variable {ι : Type} (stb : Stb ι)

def encodePicture (picture : ι) : Option ClipboardContent :=
  match encodeJpeg (stb.write picture) kJpegQuality kMaxJpegBytes with
  | [] => none
  | jpeg => some ⟨.jpeg, jpeg⟩

namespace OsClipboard

/-- Another program copies something. -/
def copy (os : OsClipboard ι) (held : Held ι) : OsClipboard ι :=
  { os with held := held, sequence := os.sequence + 1 }

/-- `opened` says whether the system lets the program at its clipboard. -/
def readClipboard (os : OsClipboard ι) (opened : Bool) : Option ClipboardContent :=
  if !opened then none
  else match os.held with
    | .empty => none
    | .text utf8 => some ⟨.text, utf8⟩
    | .image picture => encodePicture stb picture
    | .offered wire => some wire

/-- A picture that does not decode is not written on Windows, and is offered
as it came on X11. -/
def writeClipboard (os : OsClipboard ι) (opened : Bool) (content : ClipboardContent) : OsClipboard ι :=
  if !opened then os
  else match os.platform, content.type with
    | .x11, _ => os.copy (.offered content)
    | .windows, .text => os.copy (.text content.data)
    | .windows, .jpeg =>
        match stb.load content.data with
        | some picture => os.copy (.image picture)
        | none => os

/-- There is no cheap test on X11. -/
def clipboardChanged (os : OsClipboard ι) : Bool × OsClipboard ι :=
  match os.platform with
  | .x11 => (true, os)
  | .windows => (os.lastSeq ≠ some os.sequence, { os with lastSeq := some os.sequence })

/-- No sequence number was looked at before it was reached. -/
def Looked (os : OsClipboard ι) : Prop :=
  ∀ n, os.lastSeq = some n → n ≤ os.sequence

variable {os : OsClipboard ι}

theorem looked_copy (hLooked : os.Looked) (held : Held ι) : (os.copy held).Looked := by
  intro n hSeq
  exact Nat.le_succ_of_le (hLooked n hSeq)

/-- The check reports what was copied since. -/
theorem changed_copy (hLooked : os.Looked) (held : Held ι) : (os.copy held).clipboardChanged.1 = true := by
  unfold clipboardChanged copy
  cases os.platform with
  | x11 => rfl
  | windows =>
      apply decide_eq_true
      intro hSeq
      exact absurd (hLooked _ hSeq) (Nat.not_succ_le_self _)

end OsClipboard
end NoCapKVM.Clipboard
