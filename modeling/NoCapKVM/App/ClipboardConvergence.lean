import NoCapKVM.App.Station

/-! The clipboards of two connected machines. Each sends what is new on its own clipboard and
takes over what comes in, and nothing orders the contents of the two. -/
namespace NoCapKVM.App

open Clipboard Discovery

/-- A content as the thread of the peer leaves it in the slot. -/
def clipboardMessage (content : ClipboardContent) : ClipboardMessage where
  type := if clipboardMsgType content = kMsgClipboardText then .text else .jpeg
  data := content.data

/-- A content that was sent is received as it was. -/
theorem received_clipboardMessage (content : ClipboardContent) : received (clipboardMessage content) = content := by
  obtain ⟨type, data⟩ := content
  cases type <;> rfl

/-- One of two connected machines. `incoming` is what the peer has sent and
the machine's thread has not received, oldest first. -/
structure Machine (ι : Type) where
  clipboard : ClipboardState ι
  pending : Option ClipboardMessage := none
  incoming : List ClipboardMessage := []

inductive ClipboardMove where
  | copied (side : Role) (utf8 : List UInt8)
  | delivered (side : Role)
  | passed (side : Role) (now : Time)

namespace Machine

variable {ι : Type} (stb : Stb ι)

def shown (m : Machine ι) : Option ClipboardContent :=
  m.clipboard.os.readClipboard stb true

def copied (utf8 : List UInt8) (m : Machine ι) : Machine ι :=
  { m with clipboard := { m.clipboard with os := m.clipboard.os.copy (.text utf8) } }

/-- The thread receives the oldest message. -/
def delivered (m : Machine ι) : Machine ι :=
  match m.incoming with
  | [] => m
  | message :: rest => { m with pending := some message, incoming := rest }

def passed (now : Time) (m : Machine ι) : Machine ι :=
  { m with clipboard := (syncClipboard stb true m.pending { now := now } m.clipboard).1, pending := none }

/-- What a pass sends. -/
def content (now : Time) (m : Machine ι) : Option ClipboardContent :=
  (syncClipboard stb true m.pending { now := now } m.clipboard).2

def reached (content : Option ClipboardContent) (m : Machine ι) : Machine ι :=
  { m with incoming := m.incoming ++ content.toList.map clipboardMessage }

def Due (now : Time) (m : Machine ι) : Prop :=
  ¬now - m.clipboard.clipboardLastCheck < kPollInterval

instance (now : Time) (m : Machine ι) : Decidable (m.Due now) :=
  inferInstanceAs (Decidable (¬_))

/-- A pass over what was applied last skips it only if that was
also seen last. -/
def EchoesOnly (now : Time) (m : Machine ι) : Prop :=
  let s := applyPending stb { now := now } m.pending m.clipboard
  ∀ c, s.found stb { now := now } = some c → s.applied = some c → s.seen = some c

end Machine

section Run

variable {ι : Type} (stb : Stb ι)

/-- At connect time, with the clipboards as they are. -/
def connectedWith (start : Role → ClipboardState ι) (r : Role) : Machine ι where
  clipboard := forgetClipboard (start r)

/-- The sends succeed. -/
def clipboardStep (m : Role → Machine ι) (move : ClipboardMove) (r : Role) : Machine ι :=
  match move with
  | .copied side utf8 => if r = side then (m r).copied utf8 else m r
  | .delivered side => if r = side then (m r).delivered else m r
  | .passed side now => if r = side then (m r).passed stb now else (m r).reached ((m side).content stb now)

variable (start : Role → ClipboardState ι)

/-- Newest move first. -/
def clipboardRun : List ClipboardMove → Role → Machine ι
  | [] => connectedWith start
  | move :: past => clipboardStep stb (clipboardRun past) move

/-- The side has read its clipboard since it last changed. -/
def PolledSince (r : Role) : List ClipboardMove → Prop
  | [] => False
  | .copied side _ :: past => side ≠ r ∧ PolledSince r past
  | .delivered _ :: past => PolledSince r past
  | .passed side now :: past =>
      side = r ∧ (clipboardRun stb start past r).Due now ∨
        (side = r → (clipboardRun stb start past r).pending = none) ∧ PolledSince r past

def Quiet (m : Role → Machine ι) : Prop :=
  ∀ r, (m r).incoming = [] ∧ (m r).pending = none

/-- No pass takes a content for an echo that is not what the machines
exchanged last. -/
def EchoesOnly : List ClipboardMove → Prop
  | [] => True
  | .passed side now :: past => (clipboardRun stb start past side).EchoesOnly stb now ∧ EchoesOnly past
  | _ :: past => EchoesOnly past

/-- A message sent. `crossing` is the newest one on its way to the sender at
that time. -/
structure SentContent where
  sender : Role
  content : ClipboardContent
  crossing : Option ClipboardContent

def lastSent : List ClipboardMove → Option SentContent
  | [] => none
  | .passed side now :: past =>
      let m := clipboardRun stb start past side
      match m.content stb now with
      | some c => some ⟨side, c, m.incoming.getLast?.map received⟩
      | none => lastSent past
  | _ :: past => lastSent past

end Run

/-- It holds text, if anything. -/
structure Faithful {ι : Type} (os : OsClipboard ι) : Prop where
  text : match os.held with
    | .empty | .text _ => True
    | .offered wire => wire.type = .text
    | .image _ => False
  looked : os.Looked

/-- The check reports what it holds. -/
def Unread {ι : Type} (stb : Stb ι) (os : OsClipboard ι) : Prop :=
  os.readClipboard stb true = none ∨ os.clipboardChanged.1 = true

section Side

variable {ι : Type} {stb : Stb ι}

/-- A clipboard that holds text, if anything, is read as text. -/
theorem faithful_type {os : OsClipboard ι} (h : Faithful os) {c : ClipboardContent}
    (hRead : os.readClipboard stb true = some c) : c.type = .text := by
  have hText := h.text
  unfold OsClipboard.readClipboard at hRead
  cases hHeld : os.held with
  | empty => simp [hHeld] at hRead
  | text utf8 =>
      simp only [hHeld] at hRead
      exact (Option.some.inj hRead).symm ▸ rfl
  | image picture => simp [hHeld] at hText
  | offered wire =>
      simp only [hHeld] at hRead hText
      exact Option.some.inj hRead ▸ hText

/-- The check for changes leaves what the clipboard holds. -/
theorem faithful_changed {os : OsClipboard ι} (h : Faithful os) : Faithful os.clipboardChanged.2 := by
  unfold OsClipboard.clipboardChanged
  cases os.platform with
  | x11 => exact h
  | windows => exact ⟨h.text, fun n hSeq => (Option.some.inj hSeq).ge⟩

variable (stb) in
/-- Text is read back as it was written. -/
theorem write_text {os : OsClipboard ι} (h : Faithful os) {c : ClipboardContent} (hType : c.type = .text) :
    Faithful (os.writeClipboard stb true c) ∧ (os.writeClipboard stb true c).readClipboard stb true = some c := by
  obtain ⟨type, data⟩ := c
  obtain rfl : type = .text := hType
  unfold OsClipboard.writeClipboard
  cases os.platform with
  | x11 => exact ⟨⟨rfl, OsClipboard.looked_copy h.looked _⟩, rfl⟩
  | windows => exact ⟨⟨trivial, OsClipboard.looked_copy h.looked _⟩, rfl⟩

/-- A side has seen what its clipboard holds, or will look at it. -/
structure Follows (stb : Stb ι) (s : ClipboardState ι) : Prop where
  faithful : Faithful s.os
  unread : s.os.clipboardChanged.1 = true ∨ s.os.readClipboard stb true = s.seen
  empty : s.os.readClipboard stb true = none → s.seen = none

/-- After a copy of another program the change is still to be seen. -/
theorem follows_copied {s : ClipboardState ι} (h : Follows stb s) (utf8 : List UInt8) :
    Follows stb { s with os := s.os.copy (.text utf8) } where
  faithful := ⟨trivial, OsClipboard.looked_copy h.faithful.looked _⟩
  unread := .inl (OsClipboard.changed_copy h.faithful.looked _)
  empty := nofun

/-- Applying a text of the peer puts it on the clipboard and records it as
seen, so that it is not taken for a change. -/
theorem follows_applied {s : ClipboardState ι} (h : Follows stb s) {now : Time} {c : ClipboardContent}
    (hType : c.type = .text) :
    Follows stb (applyAndTrack stb { now := now } c s) ∧
      (applyAndTrack stb { now := now } c s).os.readClipboard stb true = (applyAndTrack stb { now := now } c s).seen := by
  obtain ⟨hFaithful, hRead⟩ := write_text stb h.faithful hType
  have hSeen : (applyAndTrack stb { now := now } c s).seen = some c := rfl
  constructor
  · constructor
    · exact hFaithful
    · right
      rw [hSeen]
      exact hRead
    · intro hNone
      cases hNone.symm.trans hRead
  · rw [hSeen]
    exact hRead

/-- A poll that is due has seen what the clipboard holds. -/
theorem seen_due {s : ClipboardState ι} (h : Follows stb s) {now : Time}
    (hDue : ¬now - s.clipboardLastCheck < kPollInterval) :
    s.os.readClipboard stb true = (pollClipboard stb { now := now } s).1.seen := by
  rw [(pollClipboard_spec stb { now := now } s).1]
  unfold ClipboardState.found
  simp only [hDue, false_or]
  cases hChanged : s.os.clipboardChanged.1 with
  | false =>
      rcases h.unread with hTrue | hSeen
      · cases hChanged.symm.trans hTrue
      · simpa using hSeen
  | true =>
      simp only [Bool.true_eq_false, if_false]
      cases hRead : s.os.readClipboard stb true with
      | none => exact (h.empty hRead).symm
      | some c => rfl

/-- A poll sees what the clipboard holds. -/
theorem follows_polled {s : ClipboardState ι} (h : Follows stb s) (now : Time) :
    Follows stb (pollClipboard stb { now := now } s).1 := by
  by_cases hDue : now - s.clipboardLastCheck < kPollInterval
  · unfold pollClipboard
    rw [if_pos hDue]
    exact h
  · have hSeen := seen_due h hDue
    rw [← shown_pollClipboard] at hSeen
    constructor
    · rw [pollClipboard_os, if_neg hDue]
      exact faithful_changed h.faithful
    · exact .inr hSeen
    · exact hSeen ▸ id

end Side

namespace Machine

variable {ι : Type} {stb : Stb ι}

/-- What the machine will have exchanged last once nothing is on
its way to it. -/
def awaited (m : Machine ι) : Option ClipboardContent :=
  ((m.incoming.getLast?.or m.pending).map received).or m.clipboard.seen

structure Sound (stb : Stb ι) (m : Machine ι) : Prop where
  follows : Follows stb m.clipboard
  pending : ∀ message, m.pending = some message → (received message).type = .text
  incoming : ∀ message ∈ m.incoming, (received message).type = .text

/-- A copy leaves everything on its way as it is. -/
theorem sound_copied {m : Machine ι} (h : m.Sound stb) (utf8 : List UInt8) : (m.copied utf8).Sound stb :=
  { h with follows := follows_copied h.follows utf8 }

/-- It does not change what the machine will have exchanged last either, as
long as no pass has sent it. -/
theorem awaited_copied (m : Machine ι) (utf8 : List UInt8) : (m.copied utf8).awaited = m.awaited :=
  rfl

/-- A delivery moves the oldest message into the slot, where it replaces an
earlier one. -/
theorem sound_delivered {m : Machine ι} (h : m.Sound stb) : m.delivered.Sound stb := by
  unfold delivered
  cases hIncoming : m.incoming with
  | nil => exact h
  | cons message rest =>
      have hText := h.incoming
      rw [hIncoming] at hText
      constructor
      · exact h.follows
      · intro other hPending
        exact Option.some.inj hPending ▸ hText message (.head rest)
      · intro other hOther
        exact hText other (.tail message hOther)

/-- The newest message on the way stays the newest. -/
theorem awaited_delivered (m : Machine ι) : m.delivered.awaited = m.awaited := by
  unfold delivered awaited
  cases hIncoming : m.incoming with
  | nil => simp [hIncoming]
  | cons message rest =>
      cases rest with
      | nil => rfl
      | cons next rest => rfl

/-- A text of the peer comes behind the others that are on their way. -/
theorem sound_reached {m : Machine ι} (h : m.Sound stb) {content : Option ClipboardContent}
    (hText : ∀ c, content = some c → c.type = .text) : (m.reached content).Sound stb := by
  constructor
  · exact h.follows
  · exact h.pending
  · intro message hMessage
    rcases List.mem_append.mp hMessage with hOld | hNew
    · exact h.incoming message hOld
    · obtain ⟨c, hContent, rfl⟩ := List.mem_map.mp hNew
      rw [received_clipboardMessage]
      exact hText c (Option.mem_toList.mp hContent)

/-- What comes last is awaited last. -/
theorem awaited_reached (m : Machine ι) (content : Option ClipboardContent) :
    (m.reached content).awaited = content.or m.awaited := by
  unfold reached awaited
  cases content with
  | none => simp
  | some c => simp [received_clipboardMessage]

/-- The clipboard once the pending message is applied. -/
def taken (stb : Stb ι) (now : Time) (m : Machine ι) : ClipboardState ι :=
  applyPending stb { now := now } m.pending m.clipboard

theorem passed_clipboard (m : Machine ι) (now : Time) :
    (m.passed stb now).clipboard = (pollClipboard stb { now := now } (m.taken stb now)).1 := rfl

theorem content_eq (m : Machine ι) (now : Time) :
    m.content stb now = (m.taken stb now).newContent stb { now := now } :=
  (pollClipboard_spec stb { now := now } (m.taken stb now)).2.2

/-- Applying the pending message leaves a clipboard that follows
what it holds. -/
theorem follows_taken {m : Machine ι} (h : m.Sound stb) (now : Time) : Follows stb (m.taken stb now) := by
  unfold taken
  cases hPending : m.pending with
  | none => exact h.follows
  | some message => exact (follows_applied h.follows (h.pending message hPending)).1

/-- So does a whole pass, which applies the message first and polls
afterwards. -/
theorem sound_passed {m : Machine ι} (h : m.Sound stb) (now : Time) : (m.passed stb now).Sound stb where
  follows := follows_polled (follows_taken h now) now
  pending := nofun
  incoming := h.incoming

/-- What a pass sends, its poll has found. -/
theorem content_found {m : Machine ι} {now : Time} {c : ClipboardContent} (h : m.content stb now = some c) :
    (m.taken stb now).found stb { now := now } = some c := by
  rw [content_eq] at h
  exact (Option.filter_eq_some_iff.mp h).1

/-- It is text, as all that the clipboard holds. -/
theorem content_type {m : Machine ι} (h : m.Sound stb) {now : Time} {c : ClipboardContent}
    (hContent : m.content stb now = some c) : c.type = .text :=
  faithful_type (follows_taken h now).faithful (found_shown (content_found hContent))

/-- The content seen last is that of the pending message, or as before. -/
theorem seen_taken (m : Machine ι) (now : Time) :
    (m.taken stb now).seen = (m.pending.map received).or m.clipboard.seen := by
  unfold taken
  cases m.pending <;> rfl

/-- A pass has seen what it sends, and what it had taken over otherwise. -/
theorem seen_passed {m : Machine ι} {now : Time} (hEchoes : m.EchoesOnly stb now) :
    (m.passed stb now).clipboard.seen = (m.content stb now).or (m.taken stb now).seen := by
  rw [passed_clipboard, (pollClipboard_spec stb { now := now } (m.taken stb now)).1]
  cases hFound : (m.taken stb now).found stb { now := now } with
  | none => rw [content_eq, ClipboardState.newContent, hFound]; rfl
  | some c =>
      by_cases hSeen : (m.taken stb now).seen = some c
      · rw [content_eq, ClipboardState.newContent, hFound, hSeen]
        simp [Option.filter_some]
      · have hApplied : (m.taken stb now).applied ≠ some c := fun h => hSeen (hEchoes c hFound h)
        rw [content_eq, ClipboardState.newContent, hFound]
        simp [Option.filter_some, hSeen, hApplied]

/-- After a pass the machine awaits what is still on its way, or else what it
has just sent itself. -/
theorem awaited_passed {m : Machine ι} {now : Time} (hEchoes : m.EchoesOnly stb now) :
    (m.passed stb now).awaited =
      (m.incoming.getLast?.map received).or ((m.content stb now).or m.awaited) := by
  unfold awaited
  rw [seen_passed hEchoes, seen_taken]
  change ((m.incoming.getLast?.or none).map received).or _ = _
  cases m.incoming.getLast? with
  | some message => rfl
  | none => simp

theorem newest_awaited (m : Machine ι) : (m.incoming.getLast?.map received).or m.awaited = m.awaited := by
  unfold awaited
  cases m.incoming.getLast? <;> rfl

/-- A side that has read its clipboard since it last changed has seen
what it holds. -/
def Looked (stb : Stb ι) (m : Machine ι) : Prop :=
  m.shown stb = m.clipboard.seen

/-- A pass that is due reads the clipboard, whatever it was before. -/
theorem looked_due {m : Machine ι} (h : m.Sound stb) {now : Time} (hDue : m.Due now) :
    (m.passed stb now).Looked stb := by
  have hTaken : (m.taken stb now).clipboardLastCheck = m.clipboard.clipboardLastCheck := by
    unfold taken
    cases m.pending <;> rfl
  unfold Looked shown
  rw [passed_clipboard, shown_pollClipboard]
  apply seen_due (follows_taken h now)
  rw [hTaken]
  exact hDue

/-- A pass that is throttled leaves the clipboard unread and as it was. -/
theorem looked_throttled {m : Machine ι} (hLooked : m.Looked stb) {now : Time} (hDue : ¬m.Due now)
    (hPending : m.pending = none) : (m.passed stb now).Looked stb := by
  have hTaken : m.taken stb now = m.clipboard := by
    unfold taken
    rw [hPending]
    rfl
  unfold Looked shown
  rw [passed_clipboard, hTaken, pollClipboard, if_pos (not_not.mp hDue)]
  exact hLooked

/-- A delivery does not touch the clipboard. -/
theorem looked_delivered {m : Machine ι} (hLooked : m.Looked stb) : m.delivered.Looked stb := by
  unfold delivered
  split <;> exact hLooked

end Machine

/-- What a message sent last leaves a machine with: the sender with what
crossed it. -/
def SentContent.leaves (s : SentContent) (r : Role) : ClipboardContent :=
  if r = s.sender then s.crossing.getD s.content else s.content

section Runs

variable {ι : Type} {stb : Stb ι} {start : Role → ClipboardState ι}

/-- In every run both machines stay sound: what each has seen, sent and
received fits together. -/
theorem sound_clipboardRun (hFaithful : ∀ r, Faithful (start r).os) (hUnread : ∀ r, Unread stb (start r).os)
    (moves : List ClipboardMove) (r : Role) : (clipboardRun stb start moves r).Sound stb := by
  induction moves generalizing r with
  | nil =>
      constructor
      · constructor
        · exact hFaithful r
        · exact (hUnread r).symm
        · exact fun _ => rfl
      · nofun
      · nofun
  | cons move past ih =>
      unfold clipboardRun clipboardStep
      cases move with
      | copied side utf8 =>
          dsimp only
          split
          · exact Machine.sound_copied (ih r) utf8
          · exact ih r
      | delivered side =>
          dsimp only
          split
          · exact Machine.sound_delivered (ih r)
          · exact ih r
      | passed side now =>
          dsimp only
          split
          · exact Machine.sound_passed (ih r) now
          · exact Machine.sound_reached (ih r) fun c hContent => Machine.content_type (ih side) hContent

/-- The message sent last decides what each machine will have
exchanged last. -/
theorem awaited_run {moves : List ClipboardMove} (hEchoes : EchoesOnly stb start moves) (r : Role) :
    (clipboardRun stb start moves r).awaited = (lastSent stb start moves).map (·.leaves r) := by
  induction moves generalizing r with
  | nil => rfl
  | cons move past ih =>
      cases move with
      | copied side utf8 =>
          have hPast := ih hEchoes r
          unfold clipboardRun clipboardStep lastSent
          dsimp only
          split
          · rw [Machine.awaited_copied]
            exact hPast
          · exact hPast
      | delivered side =>
          have hPast := ih hEchoes r
          unfold clipboardRun clipboardStep lastSent
          dsimp only
          split
          · rw [Machine.awaited_delivered]
            exact hPast
          · exact hPast
      | passed side now =>
          obtain ⟨hNow, hEarlier⟩ := hEchoes
          have hPast := ih hEarlier
          unfold clipboardRun clipboardStep lastSent
          dsimp only
          by_cases hSide : r = side
          · subst hSide
            rw [if_pos rfl, Machine.awaited_passed hNow]
            cases hContent : (clipboardRun stb start past r).content stb now with
            | none =>
                rw [Option.none_or, Machine.newest_awaited]
                exact hPast r
            | some c =>
                simp only [Option.map_some, SentContent.leaves, if_true]
                cases (clipboardRun stb start past r).incoming.getLast? <;> rfl
          · rw [if_neg hSide, Machine.awaited_reached]
            cases hContent : (clipboardRun stb start past side).content stb now with
            | none => exact hPast r
            | some c => simp [SentContent.leaves, hSide]

/-- A side that was polled since its clipboard changed has seen what it holds,
after any run. -/
theorem looked_run (hFaithful : ∀ r, Faithful (start r).os) (hUnread : ∀ r, Unread stb (start r).os) {r : Role}
    {moves : List ClipboardMove} (hPolled : PolledSince stb start r moves) :
    (clipboardRun stb start moves r).Looked stb := by
  induction moves with
  | nil => exact hPolled.elim
  | cons move past ih =>
      unfold clipboardRun clipboardStep
      cases move with
      | copied side utf8 =>
          obtain ⟨hOther, hPast⟩ := hPolled
          dsimp only
          rw [if_neg fun h => hOther h.symm]
          exact ih hPast
      | delivered side =>
          dsimp only
          split
          · exact Machine.looked_delivered (ih hPolled)
          · exact ih hPolled
      | passed side now =>
          dsimp only
          by_cases hSide : r = side
          · subst hSide
            rw [if_pos rfl]
            by_cases hDue : (clipboardRun stb start past r).Due now
            · exact Machine.looked_due (sound_clipboardRun hFaithful hUnread past r) hDue
            · rcases hPolled with ⟨-, hNow⟩ | ⟨hPending, hPast⟩
              · exact absurd hNow hDue
              · exact Machine.looked_throttled (ih hPast) hDue (hPending rfl)
          · rw [if_neg hSide]
            rcases hPolled with ⟨hSame, -⟩ | ⟨-, hPast⟩
            · exact absurd hSame.symm hSide
            · exact ih hPast

/-- When nothing is on its way and both sides have polled, each clipboard
holds what the message sent last leaves it with. -/
theorem shown_quiet (hFaithful : ∀ r, Faithful (start r).os) (hUnread : ∀ r, Unread stb (start r).os)
    {moves : List ClipboardMove} (hEchoes : EchoesOnly stb start moves) (hQuiet : Quiet (clipboardRun stb start moves))
    {r : Role} (hPolled : PolledSince stb start r moves) :
    (clipboardRun stb start moves r).shown stb = (lastSent stb start moves).map (·.leaves r) := by
  obtain ⟨hIncoming, hPending⟩ := hQuiet r
  have hAwaited : (clipboardRun stb start moves r).awaited = (clipboardRun stb start moves r).clipboard.seen := by
    unfold Machine.awaited
    rw [hIncoming, hPending]
    rfl
  rw [← awaited_run hEchoes, hAwaited]
  exact looked_run hFaithful hUnread hPolled

/-- No message of other content was on its way to the sender. -/
def SentContent.Uncrossed (s : SentContent) : Prop :=
  ∀ c, s.crossing = some c → c = s.content

/-- The message sent last leaves both machines with the same content exactly
when none of other content crossed it. -/
theorem leaves_agree (s : SentContent) : s.leaves .master = s.leaves .slave ↔ s.Uncrossed := by
  obtain ⟨sender, content, crossing⟩ := s
  unfold SentContent.leaves SentContent.Uncrossed
  cases crossing with
  | none => cases sender <;> simp
  | some c => cases sender <;> simp [eq_comm]

/-- Once nothing is on its way and each side has polled after its last change,
the clipboards hold the same content exactly if the message sent last has not
crossed another one. -/
theorem converged_iff (hFaithful : ∀ r, Faithful (start r).os) (hUnread : ∀ r, Unread stb (start r).os)
    (moves : List ClipboardMove) (hEchoes : EchoesOnly stb start moves)
    (hQuiet : Quiet (clipboardRun stb start moves)) (hPolled : ∀ r, PolledSince stb start r moves) :
    (clipboardRun stb start moves .master).shown stb = (clipboardRun stb start moves .slave).shown stb ↔
      ∀ s, lastSent stb start moves = some s → s.Uncrossed := by
  rw [shown_quiet hFaithful hUnread hEchoes hQuiet (hPolled .master),
    shown_quiet hFaithful hUnread hEchoes hQuiet (hPolled .slave)]
  cases lastSent stb start moves with
  | none => simp
  | some s => simp [leaves_agree]

end Runs

/-- The Master holds a text and the Slave, on X11, holds nothing. -/
def oneText (r : Role) : ClipboardState Unit :=
  match r with
  | .master => { os := { platform := .windows, held := .text [97] } }
  | .slave => { os := { platform := .x11 } }

/-- The Master's text goes over. -/
def sentOver : List ClipboardMove :=
  [.passed .slave (seconds 1), .delivered .slave, .passed .master (seconds 1)]

/-- The text of the Master goes over, and no message crosses it. -/
theorem converged_iff_sent_over :
    (clipboardRun noPictures oneText sentOver .master).shown noPictures =
        (clipboardRun noPictures oneText sentOver .slave).shown noPictures ↔
      ∀ s, lastSent noPictures oneText sentOver = some s → s.Uncrossed := by
  apply converged_iff
  · intro r
    cases r
    · exact ⟨trivial, nofun⟩
    · exact ⟨trivial, nofun⟩
  · intro r
    cases r
    · exact .inr rfl
    · exact .inl rfl
  · constructor
    · exact fun c _ hApplied => hApplied
    · constructor
      · exact fun c _ hApplied => by cases hApplied
      · trivial
  · intro r
    cases r
    · exact ⟨rfl, rfl⟩
    · exact ⟨rfl, rfl⟩
  · intro r
    cases r
    · exact .inr ⟨nofun, .inl ⟨rfl, by decide⟩⟩
    · exact .inl ⟨rfl, by decide⟩

/-- Each side holds a text of its own. -/
def twoTexts (r : Role) : ClipboardState Unit :=
  match r with
  | .master => { os := { platform := .windows, held := .text [97] } }
  | .slave => { os := { platform := .windows, held := .text [98] } }

/-- Both sides send what they hold before either receives anything. -/
def crossed : List ClipboardMove :=
  [.passed .slave (seconds 2), .passed .master (seconds 2), .delivered .slave, .delivered .master,
    .passed .slave (seconds 1), .passed .master (seconds 1)]

/-- Contents that cross are exchanged. -/
theorem crossing_contents_swap :
    ¬∀ (start : Role → ClipboardState Unit) (moves : List ClipboardMove), (∀ r, Faithful (start r).os) →
      Quiet (clipboardRun noPictures start moves) → (∀ r, PolledSince noPictures start r moves) →
      (clipboardRun noPictures start moves .master).shown noPictures =
        (clipboardRun noPictures start moves .slave).shown noPictures := by
  intro hConverge
  have hSame := hConverge twoTexts crossed ?_ ?_ ?_
  · revert hSame
    decide +kernel
  · intro r
    cases r
    · exact ⟨trivial, nofun⟩
    · exact ⟨trivial, nofun⟩
  · intro r
    cases r
    · exact ⟨rfl, rfl⟩
    · exact ⟨rfl, rfl⟩
  · intro r
    cases r
    · exact .inr ⟨nofun, .inl ⟨rfl, by decide⟩⟩
    · exact .inl ⟨rfl, by decide⟩

end NoCapKVM.App
