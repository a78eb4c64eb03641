import NoCapKVM.Discovery.World

/-! The bytes that a connection thread has read in the clear, and those that it has
put on the wire. -/
namespace NoCapKVM.Discovery

open Thread

/-- What the completed reads of a handshake have returned. -/
def heard : List ConnLabel → List UInt8
  | .did (.recvAll _ _ _) (some data) :: past => heard past ++ data.val
  | _ :: past => heard past
  | [] => []

def IsSend : Op → Prop
  | .sendAll .. | .channelSend .. => True
  | _ => False

/-- What may be on the wire. A send that fails has sent a part of its data,
and what a sealed message looks like is open. -/
inductive Wire : List ConnLabel → List UInt8 → Prop where
  | start : Wire [] []
  | sent {phase : Phase} {data : List UInt8} {past : List ConnLabel} {w : List UInt8} (h : Wire past w) :
      Wire (.did (.sendAll phase data) true :: past) (w ++ data)
  | cut {phase : Phase} {data part : List UInt8} {past : List ConnLabel} {w : List UInt8} (h : Wire past w)
      (hPart : part <+: data) (hShort : data ≠ [] → part.length < data.length) :
      Wire (.did (.sendAll phase data) false :: past) (w ++ part)
  | sealed {msgType : UInt8} {payload frame : List UInt8} {r : Bool} {past : List ConnLabel} {w : List UInt8}
      (h : Wire past w) : Wire (.did (.channelSend msgType payload) r :: past) (w ++ frame)
  | env {a : Action} {past : List ConnLabel} {w : List UInt8} (h : Wire past w) : Wire (.env a :: past) w
  | silent {o : Op} {r : Ans o} {past : List ConnLabel} {w : List UInt8} (hOp : ¬ IsSend o) (h : Wire past w) :
      Wire (.did o r :: past) w

/-- What other threads do is not on the wire of this one. -/
theorem wire_env {a : Action} {past : List ConnLabel} {w : List UInt8} (h : Wire (.env a :: past) w) :
    Wire past w := by
  cases h
  assumption

/-- Nor is an operation that sends nothing. -/
theorem wire_silent {o : Op} {r : Ans o} {past : List ConnLabel} {w : List UInt8} (hOp : ¬ IsSend o)
    (h : Wire (.did o r :: past) w) : Wire past w := by
  cases h with
  | sent => exact absurd trivial hOp
  | cut => exact absurd trivial hOp
  | sealed => exact absurd trivial hOp
  | silent _ h => exact h

/-- A send adds a part of its data, all of it if it succeeds and not all
if it fails. -/
theorem wire_send {phase : Phase} {data : List UInt8} {r : Bool} {past : List ConnLabel} {w : List UInt8}
    (h : Wire (.did (.sendAll phase data) r :: past) w) :
    ∃ w' part, Wire past w' ∧ w = w' ++ part ∧
      ((r = true ∧ part = data) ∨ (r = false ∧ part <+: data ∧ (data ≠ [] → part.length < data.length))) := by
  cases h with
  | sent h => exact ⟨_, data, h, rfl, .inl ⟨rfl, rfl⟩⟩
  | cut h hPart hShort => exact ⟨_, _, h, rfl, .inr ⟨rfl, hPart, hShort⟩⟩
  | silent hOp h => exact absurd trivial hOp

/-- What is on the wire stays there. -/
theorem wire_cons {l : ConnLabel} {past : List ConnLabel} {w : List UInt8} (h : Wire (l :: past) w) :
    ∃ w', Wire past w' ∧ w' <+: w := by
  cases h with
  | sent h => exact ⟨_, h, List.prefix_append ..⟩
  | cut h => exact ⟨_, h, List.prefix_append ..⟩
  | sealed h => exact ⟨_, h, List.prefix_append ..⟩
  | env h => exact ⟨_, h, List.prefix_rfl⟩
  | silent _ h => exact ⟨_, h, List.prefix_rfl⟩

/-- Whatever happens leaves something possible on the wire. -/
theorem wire_exists (l : ConnLabel) {past : List ConnLabel} {w : List UInt8} (h : Wire past w) :
    ∃ w', Wire (l :: past) w' ∧ w <+: w' := by
  cases l with
  | env a => exact ⟨w, .env h, List.prefix_rfl⟩
  | did o r =>
      cases o with
      | sendAll phase data =>
          cases r with
          | true => exact ⟨w ++ data, .sent h, List.prefix_append ..⟩
          | false => exact ⟨w ++ [], .cut h List.nil_prefix List.length_pos_of_ne_nil, List.prefix_append ..⟩
      | channelSend msgType payload => exact ⟨w ++ [], .sealed h, List.prefix_append ..⟩
      | _ => exact ⟨w, .silent id h, List.prefix_rfl⟩

/-- What was read stays read. -/
theorem heard_cons (l : ConnLabel) (past : List ConnLabel) : heard past <+: heard (l :: past) := by
  cases l with
  | env a => exact List.prefix_rfl
  | did o r =>
      cases o with
      | recvAll phase len deadline =>
          cases r with
          | none => exact List.prefix_rfl
          | some data => exact List.prefix_append ..
      | _ => exact List.prefix_rfl

/-- Operations that neither read nor send. -/
def IsMute : Op → Prop
  | .sendAll .. | .recvAll .. | .channelSend .. => False
  | _ => True

/-- Operations that transfer nothing read nothing. -/
theorem heard_mute {o : Op} (hO : IsMute o) (r : Ans o) (past : List ConnLabel) :
    heard (.did o r :: past) = heard past := by
  cases o <;> first
    | rfl
    | exact hO.elim

/-- They send nothing either. -/
theorem not_isSend {o : Op} (hO : IsMute o) : ¬ IsSend o := by
  intro hSend
  cases o <;> first
    | exact hSend.elim
    | exact hO.elim

/-- Exactly `r` was read and `w` was sent. -/
def Exact (r w : List UInt8) (past : List ConnLabel) : Prop :=
  heard past = r ∧ ∀ w', Wire past w' → w' = w

/-- Before the first operation nothing was read or sent. -/
theorem exact_start : Exact [] [] [] :=
  ⟨rfl, fun _ h => by cases h; rfl⟩

namespace Exact

variable {r w : List UInt8} {past : List ConnLabel}

/-- So the calls of other threads leave the exact account as it is. -/
theorem env (h : Exact r w past) (a : Action) : Exact r w (.env a :: past) :=
  ⟨h.1, fun w' hWire => h.2 w' (wire_env hWire)⟩

/-- And so do operations that transfer nothing. -/
theorem mute (h : Exact r w past) {o : Op} (hO : IsMute o) (x : Ans o) : Exact r w (.did o x :: past) :=
  ⟨(heard_mute hO x past).trans h.1, fun w' hWire => h.2 w' (wire_silent (not_isSend hO) hWire)⟩

/-- A send that succeeds adds its data to what was sent. -/
theorem sent (h : Exact r w past) (phase : Phase) (data : List UInt8) :
    Exact r (w ++ data) (.did (.sendAll phase data) true :: past) := by
  refine ⟨h.1, fun w' hWire => ?_⟩
  obtain ⟨w₀, part, hOld, rfl, ⟨-, rfl⟩ | ⟨hFalse, -⟩⟩ := wire_send hWire
  · rw [h.2 w₀ hOld]
  · cases hFalse

/-- A receive that succeeds adds what it returns to what was read. -/
theorem received (h : Exact r w past) {phase : Phase} {len : Nat} {deadline : Time} (data : Bytes UInt8 len) :
    Exact (r ++ data.val) w (.did (.recvAll phase len deadline) (some data) :: past) :=
  ⟨congrArg (· ++ data.val) h.1, fun w' hWire => h.2 w' (wire_silent id hWire)⟩

/-- Of the data of a send that fails, a part is on the wire. -/
theorem cut (h : Exact r w past) {phase : Phase} {data w' : List UInt8}
    (hWire : Wire (.did (.sendAll phase data) false :: past) w') :
    ∃ part, w' = w ++ part ∧ part <+: data ∧ (data ≠ [] → part.length < data.length) := by
  obtain ⟨w₀, part, hOld, rfl, ⟨hTrue, -⟩ | ⟨-, hPart, hShort⟩⟩ := wire_send hWire
  · cases hTrue
  · exact ⟨part, by rw [h.2 w₀ hOld], hPart, hShort⟩

end Exact

section Rules

variable {allowed : Action → Prop} {ok : Op → Assertion Op Ans Action World} {α : Type} {r w : List UInt8}
  {Q : α → Assertion Op Ans Action World} {past : List ConnLabel} {s : World}

/-- The account is about this thread only. -/
theorem exact_stable (r w : List UInt8) : Stable (connSystem allowed) fun past _ => Exact r w past :=
  fun _ _ a _ h _ => h.env a

/-- An operation that transfers nothing keeps the account. -/
theorem exact_op {o : Op} {next : Ans o → ConnProg α} (hO : IsMute o) (h : Exact r w past)
    (hOk : ∀ past s, Exact r w past → ok o past s)
    (hNext : ∀ x past s, Exact r w past → Safe (connSystem allowed) ok (next x) Q past s) :
    Safe (connSystem allowed) ok (.op o next) Q past s :=
  .op (fun past _ => Exact r w past) (exact_stable r w) h hOk
    fun _ _ x s' h _ => hNext x _ s' (h.mute hO x)

/-- So does a whole program of such operations. -/
theorem exact_uses {C : Op → Prop} {p : ConnProg α} (hUses : p.Uses C) (hMute : ∀ o, C o → IsMute o)
    (h : Exact r w past) (hOk : ∀ o past s, C o → Exact r w past → ok o past s) :
    Safe (connSystem allowed) ok p (fun _ past _ => Exact r w past) past s :=
  Safe.frame (fun past _ => Exact r w past) (exact_stable r w) hOk
    (fun o _ _ x _ hO h _ => h.mute (hMute o hO) x) hUses h

/-- After a send the account has its data, or the send has failed and what
follows is on its own. -/
theorem exact_send {phase : Phase} {data : List UInt8} {next : Bool → ConnProg α} (h : Exact r w past)
    (hOk : ∀ past s, Exact r w past → ok (.sendAll phase data) past s)
    (hCut : ∀ past s, Exact r w past → Safe (connSystem allowed) ok (next false) Q (.did (.sendAll phase data) false :: past) s)
    (hSent : ∀ past s, Exact r (w ++ data) past → Safe (connSystem allowed) ok (next true) Q past s) :
    Safe (connSystem allowed) ok (.op (.sendAll phase data) next) Q past s := by
  refine .op (fun past _ => Exact r w past) (exact_stable r w) h hOk fun past _ x s' h _ => ?_
  cases x with
  | false => exact hCut past s' h
  | true => exact hSent _ s' (h.sent phase data)

/-- After a receive the account has what was read, or the
receive has failed. -/
theorem exact_recv {phase : Phase} {len : Nat} {deadline : Time} {next : Option (Bytes UInt8 len) → ConnProg α}
    (h : Exact r w past) (hOk : ∀ past s, Exact r w past → ok (.recvAll phase len deadline) past s)
    (hNone : ∀ past s, Exact r w past → Safe (connSystem allowed) ok (next none) Q past s)
    (hSome : ∀ data past s, Exact (r ++ data.val) w past → Safe (connSystem allowed) ok (next (some data)) Q past s) :
    Safe (connSystem allowed) ok (.op (.recvAll phase len deadline) next) Q past s := by
  refine .op (fun past _ => Exact r w past) (exact_stable r w) h hOk fun _ _ x s' h _ => ?_
  cases x with
  | none => exact hNone _ s' ⟨h.1, fun w' hWire => h.2 w' (wire_silent id hWire)⟩
  | some data => exact hSome data _ s' (h.received data)

end Rules

end NoCapKVM.Discovery
