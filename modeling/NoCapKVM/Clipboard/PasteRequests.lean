import NoCapKVM.Clipboard.X11Selection

/-! What other programs get when they paste on X11. -/
namespace NoCapKVM.Clipboard.X11

open Thread

variable {ι : Type} (codec : Codec ι)

/-- What the program offered when it last took the selection. -/
def lastOffered : List (Label XOp XAns ClientAct) → Option ClipboardContent
  | [] => none
  | .did (.setSelectionOwner content) _ :: _ => some content
  | _ :: older => lastOffered older

/-- Whether the program takes itself for the owner once it has
read the events. -/
def reads : Bool → List XEvent → Bool
  | owned, [] => owned
  | _, .selectionClear :: rest => reads false rest
  | owned, _ :: rest => reads owned rest

/-- Every request comes up while the program takes itself for the owner. -/
def served : Bool → List XEvent → Prop
  | _, [] => True
  | owned, .selectionRequest _ :: rest => owned = true ∧ served owned rest
  | _, .selectionClear :: rest => served false rest
  | owned, _ :: rest => served owned rest

/-- Events can be read in two parts, with what the program takes itself for in
between. -/
theorem reads_append (owned : Bool) (l m : List XEvent) : reads owned (l ++ m) = reads (reads owned l) m := by
  induction l generalizing owned with
  | nil => rfl
  | cons e l ih =>
      cases e with
      | selectionRequest req => exact ih owned
      | selectionClear => exact ih false
      | selectionNotify accepted => exact ih owned
      | other => exact ih owned

/-- A list of events is served if both of its parts are. -/
theorem served_append (owned : Bool) (l m : List XEvent) :
    served owned (l ++ m) ↔ served owned l ∧ served (reads owned l) m := by
  induction l generalizing owned with
  | nil => exact ⟨fun h => ⟨trivial, h⟩, And.right⟩
  | cons e l ih =>
      cases e with
      | selectionRequest req => exact (and_congr_right fun _ => ih owned).trans and_assoc.symm
      | selectionClear => exact ih false
      | selectionNotify accepted => exact ih owned
      | other => exact ih owned

/-- The end of a conversion says nothing about the ownership. -/
theorem reads_notify (owned accepted : Bool) (l m : List XEvent) :
    reads owned (l ++ .selectionNotify accepted :: m) = reads owned (l ++ m) := by
  rw [reads_append, reads_append]
  rfl

/-- Nor does it change which requests are served. -/
theorem served_notify (owned accepted : Bool) (l m : List XEvent) :
    served owned (l ++ .selectionNotify accepted :: m) ↔ served owned (l ++ m) := by
  rw [served_append, served_append]
  rfl

/-- `read` are events that have been read and not been handled. -/
structure Holds (x : X11State) (read : List XEvent) (past : List (Label XOp XAns ClientAct)) (s : XServer) : Prop where
  content : x.haveOwned = true → ∃ c, lastOffered past = some c ∧ x = .offer codec c
  ahead : s.overtook = false → served x.haveOwned (read ++ s.events) ∧
    (s.owner = .us → reads x.haveOwned (read ++ s.events) = true)

variable {codec} {x : X11State} {read : List XEvent} {past : List (Label XOp XAns ClientAct)} {s : XServer}
  {req : SelectionRequest}

/-- Another event on the way. A request comes only to the owner. -/
theorem Holds.receive (h : Holds codec x read past s) {past' : List (Label XOp XAns ClientAct)} {s' : XServer} {e : XEvent}
    (hPast : lastOffered past' = lastOffered past) (hEvents : s'.events = s.events ++ [e])
    (hOvertook : s'.overtook = s.overtook) (hOwner : s'.owner = .us → s.owner = .us ∧ e ≠ .selectionClear)
    (hRequest : ∀ req, e = .selectionRequest req → s.owner = .us) : Holds codec x read past' s' where
  content hOwned := by
    rw [hPast]
    exact h.content hOwned
  ahead hNot := by
    obtain ⟨hServed, hReads⟩ := h.ahead (hOvertook ▸ hNot)
    rw [hEvents, ← List.append_assoc, served_append _ (read ++ s.events), reads_append _ (read ++ s.events)]
    refine ⟨⟨hServed, ?_⟩, ?_⟩
    · cases e with
      | selectionRequest req => exact ⟨hReads (hRequest req rfl), trivial⟩
      | selectionClear => trivial
      | selectionNotify accepted => trivial
      | other => trivial
    · intro hUs
      obtain ⟨hWas, hNotClear⟩ := hOwner hUs
      rw [hReads hWas]
      cases e with
      | selectionClear => exact absurd rfl hNotClear
      | selectionRequest req => rfl
      | selectionNotify accepted => rfl
      | other => rfl

/-- Nothing that matters has happened. -/
theorem Holds.keep (h : Holds codec x read past s) {past' : List (Label XOp XAns ClientAct)} {s' : XServer}
    (hPast : lastOffered past' = lastOffered past) (hEvents : s'.events = s.events) (hOvertook : s'.overtook = s.overtook)
    (hOwner : s'.owner = .us → s.owner = .us) : Holds codec x read past' s' where
  content hOwned := by
    rw [hPast]
    exact h.content hOwned
  ahead hNot := by
    obtain ⟨hServed, hReads⟩ := h.ahead (hOvertook ▸ hNot)
    rw [hEvents]
    exact ⟨hServed, fun hUs => hReads (hOwner hUs)⟩

/-- While nothing was overtaken, a request that is handled finds what was
offered last. -/
theorem Holds.offered (h : Holds codec x [.selectionRequest req] past s) (hNot : s.overtook = false) :
    ∃ c, lastOffered past = some c ∧ x = .offer codec c :=
  h.content (h.ahead hNot).1.1

/-- Taking an answer to a conversion out of the events changes
nothing else. -/
theorem Holds.without (h : Holds codec x [] past s) {earlier later : List XEvent} {accepted : Bool}
    (hEvents : s.events = earlier ++ .selectionNotify accepted :: later) {o : XOp} {r : XAns o}
    (hPast : lastOffered (.did o r :: past) = lastOffered past) :
    Holds codec x [] (.did o r :: past) { s with events := earlier ++ later } where
  content hOwned := by
    rw [hPast]
    exact h.content hOwned
  ahead hNot := by
    have hAhead := h.ahead hNot
    rw [hEvents] at hAhead
    simpa only [List.nil_append, served_notify, reads_notify] using hAhead

/-- The operations of `convert_selection`. -/
def Converts : XOp → Prop
  | .convertSelection _ | .now | .checkSelectionNotify | .getWindowProperty | .sleep => True
  | _ => False

/-- The operations of a conversion answer nobody. -/
theorem Holds.convert (h : Holds codec x [] past s) {o : XOp} {r : XAns o} {s' : XServer} (hO : Converts o)
    (hExec : x11.exec o s r s') : Holds codec x [] (.did o r :: past) s' := by
  cases o with
  | convertSelection target =>
      obtain ⟨req, -, rfl⟩ := hExec
      obtain ⟨owner, events, overtook⟩ := s
      cases owner with
      | nobody => exact h.receive (e := .selectionNotify false) rfl rfl rfl nofun nofun
      | us => exact h.receive (e := .selectionRequest req) rfl rfl rfl (fun hUs => ⟨hUs, nofun⟩) fun _ _ => rfl
      | client n => exact h.keep rfl rfl rfl id
  | checkSelectionNotify =>
      cases r with
      | none =>
          obtain rfl := hExec
          exact h.keep rfl rfl rfl id
      | some accepted =>
          obtain ⟨earlier, later, hEvents, -, rfl⟩ := hExec
          exact h.without hEvents rfl
  | now | getWindowProperty | sleep =>
      obtain rfl := hExec
      exact h.keep rfl rfl rfl id
  | _ => cases hO

def noPictures : Codec Unit where
  load _ := none
  write _ _ := none
  encodePng _ := []

def greeting : ClipboardContent := ⟨.text, [104, 105]⟩

end NoCapKVM.Clipboard.X11
