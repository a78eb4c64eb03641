import NoCapKVM.Clipboard.OsClipboard
import NoCapKVM.Thread.Safety

/-! `clipboard.cpp` on X11: the functions of the clipboard as programs over the requests they
make to the X server. Other clients act between any two requests. -/
namespace NoCapKVM.Clipboard.X11

open Thread

/-- The atoms that the program compares with. -/
inductive Target where
  | targets
  | utf8String
  | string
  | imagePng
  | imageJpeg
  | other (atom : Nat)
  deriving DecidableEq

structure SelectionRequest where
  requestor : Nat
  property : Nat
  target : Target
  deriving DecidableEq

/-- The events that the program distinguishes. A `selectionNotify` says
whether the owner has put something into the property. -/
inductive XEvent where
  | selectionRequest (req : SelectionRequest)
  | selectionClear
  | selectionNotify (accepted : Bool)
  | other
  deriving DecidableEq

structure X11State where
  haveOwned : Bool := false
  wire : ClipboardContent := {}
  ownedText : List UInt8 := []
  ownedPng : List UInt8 := []

/-- What the rest of the program wants of the clipboard. -/
inductive Call where
  | read
  | write (content : ClipboardContent)
  | pump

/-- The argument of `setSelectionOwner` is what the program offers
from then on. -/
inductive XOp where
  | nextCall
  | returned (result : Option ClipboardContent)
  | pending
  | nextEvent
  | checkSelectionNotify
  | getSelectionOwner
  | convertSelection (target : Target)
  | getWindowProperty
  | changeTargets (req : SelectionRequest) (offered : List Target)
  | changeProperty (req : SelectionRequest) (data : List UInt8)
  | sendNotify (req : SelectionRequest) (accepted : Bool)
  | setSelectionOwner (offering : ClipboardContent)
  | now
  | sleep

@[reducible] def XAns : XOp → Type
  | .nextCall => Call
  | .pending => Bool
  | .nextEvent => XEvent
  | .checkSelectionNotify => Option Bool
  | .getSelectionOwner => Bool
  | .getWindowProperty => Option (List UInt8)
  | .now => Nat
  | _ => Unit

abbrev XProg := Prog XOp XAns

abbrev perform (o : XOp) : XProg (XAns o) := Prog.perform o

/-- stb_image_write for PNG files, beside the functions for JPEG files. -/
structure Codec (ι : Type) extends Stb ι where
  encodePng : ι → List UInt8

variable {ι : Type} (codec : Codec ι)

/-- The answer to a request for `TARGETS`. -/
def offeredTargets (s : X11State) : List Target :=
  if s.haveOwned then
    match s.wire.type with
    | .text => [.utf8String]
    | .jpeg => [.imagePng, .imageJpeg]
  else []

/-- What is put into the property of a requestor, unless its target is
refused. -/
def requestedData (s : X11State) (target : Target) : Option (List UInt8) :=
  if s.haveOwned ∧ s.wire.type = .text ∧ (target = .utf8String ∨ target = .string) then some s.ownedText
  else if s.haveOwned ∧ s.wire.type = .jpeg ∧ target = .imagePng then some s.ownedPng
  else if s.haveOwned ∧ s.wire.type = .jpeg ∧ target = .imageJpeg then some s.wire.data
  else none

def handleSelectionRequest (s : X11State) (req : SelectionRequest) : XProg Unit := do
  if req.target = .targets then
    perform (.changeTargets req (offeredTargets s))
    perform (.sendNotify req true)
  else match requestedData s req.target with
    | none => perform (.sendNotify req false)
    | some data =>
        perform (.changeProperty req data)
        perform (.sendNotify req true)

/-- `SelectionClear` -/
def X11State.clear (s : X11State) : X11State :=
  { s with haveOwned := false, ownedText := [], ownedPng := [] }

def handleEvent (s : X11State) : XEvent → XProg X11State
  | .selectionRequest req => do
      handleSelectionRequest s req
      return s
  | .selectionClear => return s.clear
  | _ => return s

def servicePendingEvents (s : X11State) : XProg X11State :=
  Prog.iterate s fun s => do
    if !(← perform .pending) then return .inr s
    let event ← perform .nextEvent
    let s ← handleEvent s event
    return .inl s

def kConvertTimeout : Nat := 300

def convertSelection (target : Target) : XProg (Option (List UInt8)) := do
  perform (.convertSelection target)
  let deadline := (← perform .now) + kConvertTimeout
  Prog.iterate () fun _ => do
    if (← perform .now) ≥ deadline then return .inr none
    match ← perform .checkSelectionNotify with
    | some false => return .inr none
    | some true => return .inr (← perform .getWindowProperty)
    | none =>
        perform .sleep
        return .inl ()

/-- Legacy STRING data is Latin-1. -/
def latin1ToUtf8 (latin1 : List UInt8) : List UInt8 :=
  latin1.flatMap fun b => if b < 0x80 then [b] else [(0xC0 : UInt8) ||| (b >>> 6), (0x80 : UInt8) ||| (b &&& 0x3F)]

def readClipboard (s : X11State) : XProg (X11State × Option ClipboardContent) := do
  let s ← servicePendingEvents s
  if ← perform .getSelectionOwner then return (s, if s.haveOwned then some s.wire else none)
  match ← convertSelection .utf8String with
  | some bytes => return (s, some ⟨.text, bytes⟩)
  | none =>
      match ← convertSelection .string with
      | some bytes => return (s, some ⟨.text, latin1ToUtf8 bytes⟩)
      | none =>
          match ← convertSelection .imagePng with
          | some bytes => return (s, (codec.load bytes).bind (encodePicture codec.toStb))
          | none => return (s, none)

/-- The state that `write_clipboard` leaves behind. -/
def X11State.offer (content : ClipboardContent) : X11State :=
  match content.type with
  | .text => { haveOwned := true, wire := content, ownedText := content.data }
  | .jpeg =>
      { haveOwned := true, wire := content,
        ownedPng := match codec.load content.data with
          | some picture => codec.encodePng picture
          | none => [] }

def writeClipboard (s : X11State) (content : ClipboardContent) : XProg X11State := do
  let _ ← servicePendingEvents s
  let s := X11State.offer codec content
  perform (.setSelectionOwner content)
  return s

/-- Who has the selection. -/
inductive Owner where
  | nobody
  | us
  | client (n : Nat)
  deriving DecidableEq

/-- `events` are the events for the program that it has not read, in order.
`overtook` says that a `SelectionClear` was among them when the program last
took the selection. -/
structure XServer where
  owner : Owner := .nobody
  events : List XEvent := []
  overtook : Bool := false

/-- What other clients do. An answer to a conversion may come at any
time, or never. -/
inductive ClientAct where
  | takes (n : Nat)
  | leaves
  | asks (req : SelectionRequest)
  | answers (accepted : Bool)
  | sends

def ClientAct.acts : ClientAct → XServer → XServer → Prop
  | .takes n, s, s' =>
      s' = { s with owner := .client n,
                    events := if s.owner = .us then s.events ++ [.selectionClear] else s.events }
  | .leaves, s, s' => s.owner ≠ .us ∧ s' = { s with owner := .nobody }
  | .asks req, s, s' => s.owner = .us ∧ s' = { s with events := s.events ++ [.selectionRequest req] }
  | .answers accepted, s, s' => s' = { s with events := s.events ++ [.selectionNotify accepted] }
  | .sends, s, s' => s' = { s with events := s.events ++ [.other] }

/-- The requests of the program. `XPending` may not see what is still on its
way. A request for the program's own selection comes back to it. -/
def exec : (o : XOp) → XServer → XAns o → XServer → Prop
  | .pending, s, r, s' => s' = s ∧ (r = true → s.events ≠ [])
  | .nextEvent, s, r, s' => ∃ rest, s.events = r :: rest ∧ s' = { s with events := rest }
  | .checkSelectionNotify, s, none, s' => s' = s
  | .checkSelectionNotify, s, some accepted, s' => ∃ earlier later,
      s.events = earlier ++ .selectionNotify accepted :: later ∧ (∀ a, .selectionNotify a ∉ earlier) ∧
      s' = { s with events := earlier ++ later }
  | .getSelectionOwner, s, r, s' => s' = s ∧ (r = true ↔ s.owner = .us)
  | .convertSelection target, s, _, s' => ∃ req : SelectionRequest, req.target = target ∧
      s' = { s with events := match s.owner with
        | .nobody => s.events ++ [.selectionNotify false]
        | .us => s.events ++ [.selectionRequest req]
        | .client _ => s.events }
  | .setSelectionOwner _, s, _, s' =>
      s' = { s with owner := .us, overtook := decide (.selectionClear ∈ s.events) }
  | _, s, _, s' => s' = s

/-- The program and the other clients on one server. -/
def x11 : System XOp XAns ClientAct XServer where
  exec := exec
  env := ClientAct.acts

end NoCapKVM.Clipboard.X11
