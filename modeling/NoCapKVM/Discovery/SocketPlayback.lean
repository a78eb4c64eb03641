import NoCapKVM.Discovery.SecureChannel
import NoCapKVM.Thread.Replay

/-! Concrete runs of the calls of a channel. The bytes that have arrived are
read whole or cut anywhere, and the clock goes on as far as it is told to. -/
namespace NoCapKVM.Discovery.SecureChannel

open Thread

/-- How the answer of an operation on the socket is chosen. `usual` takes all
that is asked for, and `some` a part of it. A wait that has a time ends then,
with nothing to read. -/
inductive SocketChoice where
  | usual
  | time (t : Time)
  | some (count : Nat)

/-- The next bytes of the peer, as many of `count` as are asked for. -/
def takeBytes (len count : Nat) (s : Socket) : Option (RecvAnswer len × Socket) :=
  let data := s.incoming.take (min len count)
  if h : 0 < data.length then
    some (.data ⟨data, h, (List.length_take_le _ _).trans (Nat.min_le_left _ _)⟩,
      { s with incoming := s.incoming.drop (min len count) })
  else none

/-- Sending is not played: a channel that takes everything has
runs of its own. -/
def respondSocket : (o : ChannelOp) → Socket → SocketChoice → Option (ChannelAns o × Socket)
  | .now, s, .time t =>
      if s.clock ≤ t then some (t, { s with clock := t, reading := s.reading.begin t }) else none
  | .now, s, _ => some (s.clock, { s with reading := s.reading.begin s.clock })
  | .waitReadable _, s, .time t => if s.clock ≤ t then some (false, { s with clock := t, reading := .idle }) else none
  | .waitReadable _, s, _ => some (true, { s with reading := .due })
  | .recv len, s, .some count => takeBytes len count s
  | .recv len, s, _ => takeBytes len len s
  | .send .., _, _ => none
  | .loadSendNonce, s, _ => some (s.sendNonce, s)
  | .storeSendNonce nonce, s, _ => some ((), { s with sendNonce := nonce })
  | .loadRecvNonce, s, _ => some (s.recvNonce, s)
  | .storeRecvNonce nonce, s, _ => some ((), { s with recvNonce := nonce })

theorem exec_of_takeBytes {len count : Nat} {s s' : Socket} {r : RecvAnswer len}
    (h : takeBytes len count s = some (r, s')) : s.exec (.recv len) r s' := by
  unfold takeBytes at h
  simp only [Option.dite_none_right_eq_some, Option.some.injEq, Prod.mk.injEq] at h
  obtain ⟨hData, rfl, rfl⟩ := h
  exact ⟨_, (List.take_append_drop ..).symm, rfl⟩

/-- Every answer that is played is one that the socket can give, and leaves
the socket as that answer does. -/
theorem exec_of_respondSocket {o : ChannelOp} {s s' : Socket} {x : SocketChoice} {r : ChannelAns o}
    (h : respondSocket o s x = some (r, s')) : s.exec o r s' := by
  cases o with
  | now =>
      cases x with
      | time t =>
          simp only [respondSocket, Option.ite_none_right_eq_some, Option.some.injEq, Prod.mk.injEq] at h
          obtain ⟨hLe, rfl, rfl⟩ := h
          exact ⟨hLe, rfl⟩
      | _ =>
          cases h
          exact ⟨Nat.le_refl _, rfl⟩
  | waitReadable timeout =>
      cases x with
      | time t =>
          simp only [respondSocket, Option.ite_none_right_eq_some, Option.some.injEq, Prod.mk.injEq] at h
          obtain ⟨hLe, rfl, rfl⟩ := h
          exact ⟨t, hLe, rfl⟩
      | _ =>
          cases h
          exact ⟨_, Nat.le_refl _, rfl⟩
  | recv len => cases x <;> exact exec_of_takeBytes h
  | send data count => cases h
  | _ =>
      cases h
      first
        | rfl
        | exact ⟨rfl, rfl⟩

def socketPlayer : Player (alone Socket.exec) SocketChoice where
  respond := respondSocket
  respond_exec := exec_of_respondSocket
  react a := nomatch a
  react_env {a} := nomatch a

def inTime : (o : ChannelOp) → Socket → ChannelAns o → Bool
  | .now, s, r =>
      match s.reading with
      | .since t => r < t + kFrameTimeout
      | _ => true
  | _, _, _ => true

theorem timely_of_inTime {o : ChannelOp} {s : Socket} {r : ChannelAns o} (h : inTime o s r = true) : s.Timely o r := by
  cases o with
  | now =>
      intro t hSince
      simp only [inTime, hSince] at h
      exact of_decide_eq_true h
  | _ => trivial

/-- The player of a socket, for answers that are in time. -/
def timelyPlayer : Player (alone timely) SocketChoice where
  respond o s x := (respondSocket o s x).filter fun answered => inTime o s answered.1
  respond_exec h := by
    obtain ⟨hRespond, hInTime⟩ := Option.filter_eq_some_iff.mp h
    exact ⟨exec_of_respondSocket hRespond, timely_of_inTime hInTime⟩
  react a := nomatch a
  react_env {a} := nomatch a

def reads (count : Nat) : List (Cue Empty SocketChoice) :=
  List.replicate count (.answer .usual)

/-- The length of a frame is read in one piece. -/
def readLength : List (Cue Empty SocketChoice) :=
  reads 3 ++ .enter :: reads 2 ++ [.enter]

/-- A frame is read in one piece, and decrypts. -/
def readWhole : List (Cue Empty SocketChoice) :=
  readLength ++ .enter :: reads 2 ++ .enter :: reads 2

/-- A frame is cut in its length and in its ciphertext. Each part is read in a
round of its own. -/
def readCut (header body : Nat) : List (Cue Empty SocketChoice) :=
  reads 3 ++ .enter :: reads 1 ++ .answer (.some header) :: .enter :: reads 2 ++ .enter ::
    .enter :: reads 1 ++ .answer (.some body) :: .enter :: reads 2 ++ .enter :: reads 2

/-- Nothing comes until a time. -/
def readNothing (t : Time) : List (Cue Empty SocketChoice) :=
  [.answer .usual, .answer (.time t)]

end NoCapKVM.Discovery.SecureChannel
