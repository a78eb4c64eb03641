import NoCapKVM.App.Station
import NoCapKVM.Discovery.PlainSodium

/-! The Master's audio requests on the Slave. A request is new if its number on this
connection is not the number applied last, and that may be from an earlier connection. -/
namespace NoCapKVM.App

open Audio Clipboard Discovery

variable {ι : Type} {na : Sodium UInt8} {stb : Stb ι} {platform : Platform}

/-- What the present connection has brought. `latest` is its latest request
and `applied` what frames have made the settings since that one came, newest
first. `arrived` counts its requests, and `counted` is that count at the last
frame that found a request. -/
structure Requests where
  latest : Option AudioSettings := none
  arrived : Nat := 0
  seen : Bool := false
  counted : Nat := 0
  applied : List AudioSettings := []

/-- The settings that a frame takes over. -/
def newRequest (info : ConnectionInfo) (state : SlaveAudio) : Option AudioSettings :=
  if info.masterAudioControlReceived && info.masterAudioControlSeq ≠ state.audioLastAppliedMasterControlSeq then
    some info.masterRequested
  else none

namespace Requests

/-- Another connection, without requests. -/
def renewed (q : Requests) : Requests :=
  { counted := q.counted }

def did (q : Requests) (o : ThreadOp) : Requests :=
  match o.val with
  | .assignStatus _ => q.renewed
  | .updateStatus (.masterRequested m) =>
      { q with latest := some m, arrived := q.arrived + 1, seen := false, applied := [] }
  | _ => q

def afterOps (ops : List ThreadOp) (q : Requests) : Requests :=
  ops.foldl did q

/-- A frame that polls this status runs on the connection and
finds a request. -/
def Meets (q : Requests) (info : ConnectionInfo) : Prop :=
  info.state = .connected ∧ q.latest.isSome = true

instance (q : Requests) (info : ConnectionInfo) : Decidable (q.Meets info) :=
  inferInstanceAs (Decidable (_ ∧ _))

def polled (q : Requests) (info : ConnectionInfo) (state : SlaveAudio) : Requests :=
  if q.Meets info then
    { q with seen := true, counted := q.arrived, applied := (newRequest info state).toList ++ q.applied }
  else q

/-- A connection performs operations, if there is one. -/
def advance (q : Requests) (connection : Option Shared) (ops : List ThreadOp) : Requests :=
  if connection.isSome then q.afterOps ops else q

def moved (q : Requests) (s : Station ι) : StationMove ι → Requests
  | .began | .dropped => q.renewed
  | .did o => q.advance s.connection [o]
  | .pumpAudio _ early late => (s.polled.elim q (q.polled · s.slave)).advance s.connection (early ++ late)
  | .pumpClipboard _ _ taking early late => q.advance s.connection (taking ++ early ++ late)
  | _ => q

end Requests

variable (na stb platform)

variable {na stb platform}

namespace Requests

/-- The status counts the requests of its connection. -/
structure Counting (q : Requests) (info : ConnectionInfo) : Prop where
  received : info.masterAudioControlReceived = q.latest.isSome
  requested : ∀ m, q.latest = some m → info.masterRequested = m
  seq : info.masterAudioControlSeq = UInt32.ofNat q.arrived

/-- A request that a frame has met has the number that was applied last. -/
structure Settled (q : Requests) : Prop where
  seen : q.seen = true → UInt32.ofNat q.counted = UInt32.ofNat q.arrived
  unseen : q.seen = false → q.applied = []

/-- What holds of the counts in every run. -/
structure Tracked (q : Requests) (s : Station ι) : Prop where
  counting : ∀ info, s.polled = some info → Counting q info
  settled : Settled q
  last : s.slave.audioLastAppliedMasterControlSeq = UInt32.ofNat q.counted

/-- On another connection no frame has met a request yet. -/
theorem settled_renewed (q : Requests) : Settled q.renewed where
  seen := nofun
  unseen _ := rfl

/-- A frame that has met the requests so far has still met them when
new ones come. -/
theorem settled_did {q : Requests} (h : Settled q) (o : ThreadOp) : Settled (q.did o) := by
  obtain ⟨o, hBare⟩ := o
  cases o with
  | assignStatus info => exact settled_renewed q
  | updateStatus u =>
      cases u with
      | masterRequested m => exact ⟨nofun, fun _ => rfl⟩
      | _ => exact h
  | _ => exact h

end Requests

namespace Requests

/-- What a frame has met is applied. -/
def Done (q : Requests) : Prop :=
  q.seen = true → q.applied = q.latest.toList

end Requests

open Requests

end NoCapKVM.App
