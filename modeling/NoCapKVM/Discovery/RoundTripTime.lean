import NoCapKVM.Discovery.GoAway
import NoCapKVM.Discovery.SessionLoop

/-! `discovery/ping_protocol.cpp` and the probes of both message loops: on which pings the
round-trip times on display were measured. -/
namespace NoCapKVM.Discovery.RoundTripTime

open Thread

/-- What a connection thread has done about pings. `replies` are the
pongs since its own last ping, and `asked` the pings of the peer, the
newest first. -/
structure PingLog where
  clock : Time := 0
  ping : Option (UInt32 × Time) := none
  replies : List UInt32 := []
  measured : Bool := false
  asked : List UInt32 := []
  answered : List UInt32 := []

namespace PingLog

/-- The clock is read. -/
def readClock (p : PingLog) (t : Time) : PingLog :=
  { p with clock := t }

/-- A message is received. -/
def hear (p : PingLog) (msgType : UInt8) (payload : List UInt8) : PingLog :=
  if msgType = kMsgPing then { p with asked := (decodePingSeq payload).toList ++ p.asked }
  else if msgType = kMsgPong then { p with replies := (decodePingSeq payload).toList ++ p.replies }
  else p

/-- A message is sent. -/
def say (p : PingLog) (msgType : UInt8) (payload : List UInt8) : PingLog :=
  if msgType = kMsgPing then
    { p with ping := (decodePingSeq payload).map (·, p.clock), replies := [], measured := false }
  else if msgType = kMsgPong then { p with answered := (decodePingSeq payload).toList ++ p.answered }
  else p

def step (p : PingLog) : ConnLabel → PingLog
  | .did .now t => p.readClock t
  | .did (.channelReceive _) (.ok msgType payload) => p.hear msgType payload
  | .did (.channelSend msgType payload) _ => p.say msgType payload
  | .did (.updateStatus (.lastRttMs _)) _ => { p with measured := true }
  | _ => p

/-- A number of a ping survives its encoding. -/
theorem decode_encode (seq : UInt32) : decodePingSeq (encodePingSeq seq) = some seq := by
  have hDecode := decodePingSeq_encodePingSeq seq []
  rwa [List.append_nil] at hDecode

/-- A ping that carries a number is noted as asked. -/
theorem hear_ping (p : PingLog) (payload : List UInt8) :
    p.hear kMsgPing payload = { p with asked := (decodePingSeq payload).toList ++ p.asked } :=
  if_pos rfl

/-- A pong that carries a number is noted as a reply. -/
theorem hear_pong (p : PingLog) (payload : List UInt8) :
    p.hear kMsgPong payload = { p with replies := (decodePingSeq payload).toList ++ p.replies } := by
  rw [hear, if_neg (by decide), if_pos rfl]

/-- Sending a ping begins a new measurement at the time of the clock. -/
theorem say_ping (p : PingLog) (seq : UInt32) : p.say kMsgPing (encodePingSeq seq) =
    { p with ping := some (seq, p.clock), replies := [], measured := false } := by
  rw [say, if_pos rfl, decode_encode]
  rfl

/-- Sending a pong notes its number as answered. -/
theorem say_pong (p : PingLog) (seq : UInt32) :
    p.say kMsgPong (encodePingSeq seq) = { p with answered := seq :: p.answered } := by
  rw [say, if_neg (by decide), if_pos rfl, decode_encode]
  rfl

/-- The last ping has had its pong. -/
def Replied (p : PingLog) : Prop :=
  ∃ seq sentAt, p.ping = some (seq, sentAt) ∧ seq ∈ p.replies

end PingLog

def pingLog (past : List ConnLabel) : PingLog :=
  past.foldr (fun l p => p.step l) {}

/-- A time is displayed when the last ping has just had its first pong, and is
the time since that ping. Where the loop waits, a time was displayed for each
last ping with a pong, and each ping of the peer was answered once. -/
def measures : Op → Assertion Op Ans Action World
  | .updateStatus (.lastRttMs ms) => fun past _ => (pingLog past).measured = false ∧
      ∃ seq sentAt, (pingLog past).ping = some (seq, sentAt) ∧ (pingLog past).replies.head? = some seq ∧
        sentAt ≤ (pingLog past).clock ∧ ms = (((pingLog past).clock - sentAt) / milliseconds 1 : Nat)
  | .channelReceive _ => fun past _ =>
      ((pingLog past).measured = true ↔ (pingLog past).Replied) ∧ (pingLog past).answered = (pingLog past).asked
  | _ => fun _ _ => True

/-- The variables follow the log. -/
structure Tracks (link : Link) (p : PingLog) : Prop where
  inFlight : link.pingInFlightSeq = if p.measured then none else p.ping.map Prod.fst
  sentAt : ∀ seq t, p.ping = some (seq, t) → link.pingSentAt = t ∧ link.lastPingSent = t ∧ t ≤ p.clock
  replied : p.measured = true ↔ p.Replied
  echoed : p.answered = p.asked

variable {link : Link} {p : PingLog} {allowed : Action → Prop} {past : List ConnLabel} {w : World} {α : Type}

/-- The variables follow the log also when the clock goes on. -/
theorem Tracks.later (h : Tracks link p) {t : Time} (hLe : p.clock ≤ t) : Tracks link (p.readClock t) where
  inFlight := h.inFlight
  sentAt seq sentAt hPing := by
    obtain ⟨hSent, hLast, hBefore⟩ := h.sentAt seq sentAt hPing
    exact ⟨hSent, hLast, Nat.le_trans hBefore hLe⟩
  replied := h.replied
  echoed := h.echoed

/-- The variables follow the log, and the clock has not been read ahead of. -/
def Following (link : Link) (past : List ConnLabel) (w : World) : Prop :=
  Tracks link (pingLog past) ∧ (pingLog past).clock ≤ w.clock

/-- A message was received, and is still to be dealt with. -/
def Due (link : Link) (msgType : UInt8) (payload : List UInt8) (past : List ConnLabel) (w : World) : Prop :=
  (∃ p, Tracks link p ∧ p.clock ≤ (pingLog past).clock ∧
    pingLog past = (p.hear msgType payload).readClock (pingLog past).clock) ∧ (pingLog past).clock ≤ w.clock

/-- The variables belong to the thread, so the other threads
leave them alone. -/
theorem following_stable (link : Link) : Stable (connSystem allowed) (Following link) := by
  rintro past w a w' ⟨hTracks, hClock⟩ ⟨-, rfl⟩
  refine ⟨hTracks, ?_⟩
  rw [act_clock]
  exact hClock

/-- A message that was received stays to be dealt with until the
thread does so. -/
theorem due_stable (link : Link) (msgType : UInt8) (payload : List UInt8) :
    Stable (connSystem allowed) (Due link msgType payload) := by
  rintro past w a w' ⟨hDue, hClock⟩ ⟨-, rfl⟩
  refine ⟨hDue, ?_⟩
  rw [act_clock]
  exact hClock

/-- No operation of a session turns the clock back. -/
theorem clock_le {o : Op} {w w' : World} {r : Ans o} (hO : IsSessionOp o) (h : World.exec o w r w') :
    w.clock ≤ w'.clock := by
  cases o with
  | now =>
      obtain ⟨hLe, rfl⟩ := h
      exact hLe
  | loadRunning | loadDisconnect | loadHeartbeatTimeout =>
      obtain ⟨-, rfl⟩ := h
      exact Nat.le_refl _
  | channelSend | channelReceive | getLocalMonitors | setPendingClipboard | inject | updateStatus =>
      obtain rfl := h
      exact Nat.le_refl _
  | _ => exact hO.elim

/-- Operations that the log does not notice. -/
def IsAside (o : Op) : Prop :=
  IsSessionOp o ∧ ∀ (r : Ans o) (p : PingLog), p.step (.did o r) = p

/-- Operations that the log does not notice display no time. -/
theorem measures_of_aside {o : Op} (hO : IsAside o) (past : List ConnLabel) (w : World) : measures o past w := by
  cases o with
  | channelReceive deadline =>
      have hNoticed := congrArg PingLog.asked (hO.2 (.ok kMsgPing (encodePingSeq 0)) {})
      cases hNoticed
  | updateStatus u =>
      cases u with
      | lastRttMs ms => cases congrArg PingLog.measured (hO.2 () {})
      | _ => trivial
  | _ => trivial

/-- They also leave the variables in step with the log. -/
theorem following_aside {o : Op} (hO : IsAside o) {w' : World} {r : Ans o} (h : Following link past w)
    (hExec : World.exec o w r w') : Following link (.did o r :: past) w' := by
  have hSame : pingLog (.did o r :: past) = pingLog past := hO.2 r (pingLog past)
  unfold Following
  rw [hSame]
  exact ⟨h.1, Nat.le_trans h.2 (clock_le hO.1 hExec)⟩

/-- Besides, the clock was read last at `now`. -/
def FollowingAt (link : Link) (now : Time) (past : List ConnLabel) (w : World) : Prop :=
  Following link past w ∧ (pingLog past).clock = now

theorem followingAt_stable (link : Link) (now : Time) : Stable (connSystem allowed) (FollowingAt link now) :=
  (following_stable link).and fun _ _ _ _ h _ => h

theorem aside_at_op {o : Op} {next : Ans o → ConnProg α} {Q : α → Assertion Op Ans Action World} {now : Time}
    (hO : IsAside o) (h : FollowingAt link now past w)
    (hNext : ∀ r past w, FollowingAt link now past w → Safe (connSystem allowed) measures (next r) Q past w) :
    Safe (connSystem allowed) measures (.op o next) Q past w := by
  apply Safe.op (FollowingAt link now) (followingAt_stable link now) h (fun past w _ => measures_of_aside hO past w)
  rintro past w r w' ⟨h, hClock⟩ hExec
  exact hNext r _ w' ⟨following_aside hO h hExec, (congrArg PingLog.clock (hO.2 r (pingLog past))).trans hClock⟩

/-- So they may stand anywhere in a session. -/
theorem aside_op {o : Op} {next : Ans o → ConnProg α} {Q : α → Assertion Op Ans Action World} (hO : IsAside o)
    (h : Following link past w)
    (hNext : ∀ r past w, Following link past w → Safe (connSystem allowed) measures (next r) Q past w) :
    Safe (connSystem allowed) measures (.op o next) Q past w :=
  aside_at_op hO ⟨h, rfl⟩ fun r past w h => hNext r past w h.1

/-- A look at the clock gives the time that the log has. -/
theorem now_op {next : Time → ConnProg α} {Q : α → Assertion Op Ans Action World} (h : Following link past w)
    (hNext : ∀ past w, Following link past w →
      Safe (connSystem allowed) measures (next (pingLog past).clock) Q past w) :
    Safe (connSystem allowed) measures (.op .now next) Q past w := by
  apply Safe.op (Following link) (following_stable link) h (fun _ _ _ => trivial)
  rintro past w t w' ⟨hTracks, hClock⟩ ⟨hLe, rfl⟩
  exact hNext (.did .now t :: past) _ ⟨hTracks.later (Nat.le_trans hClock hLe), Nat.le_refl t⟩

variable {msgType : UInt8} {payload : List UInt8}

/-- A message that the log does not notice. -/
theorem following_of_due (hPing : msgType ≠ kMsgPing) (hPong : msgType ≠ kMsgPong) (h : Due link msgType payload past w) :
    Following link past w := by
  obtain ⟨⟨p, hTracks, hLe, hLog⟩, hClock⟩ := h
  rw [PingLog.hear, if_neg hPing, if_neg hPong] at hLog
  refine ⟨?_, hClock⟩
  rw [hLog]
  exact hTracks.later hLe

theorem due_now_op {next : Time → ConnProg α} {Q : α → Assertion Op Ans Action World}
    (h : Due link msgType payload past w)
    (hNext : ∀ past w, Due link msgType payload past w →
      Safe (connSystem allowed) measures (next (pingLog past).clock) Q past w) :
    Safe (connSystem allowed) measures (.op .now next) Q past w := by
  apply Safe.op (Due link msgType payload) (due_stable link msgType payload) h (fun _ _ _ => trivial)
  rintro past w t w' ⟨⟨p, hTracks, hClock, hLog⟩, hWorld⟩ ⟨hLe, rfl⟩
  refine hNext (.did .now t :: past) _ ⟨⟨p, hTracks, Nat.le_trans hClock (Nat.le_trans hWorld hLe), ?_⟩, Nat.le_refl t⟩
  change (pingLog past).readClock t = _
  rw [hLog]
  rfl

/-- Dealing with a ping answers it with its number, where it carries one. -/
theorem answerPing_safe (payload : List UInt8) (h : Due link kMsgPing payload past w) :
    Safe (connSystem allowed) measures (answerPing payload) (fun _ => Following link) past w := by
  unfold answerPing
  cases hSeq : decodePingSeq payload with
  | none =>
      refine Safe.ret (Q := fun _ => Following link) (following_stable link) ?_
      obtain ⟨⟨p, hTracks, hLe, hLog⟩, hClock⟩ := h
      refine ⟨?_, hClock⟩
      rw [hLog, PingLog.hear_ping, hSeq]
      exact hTracks.later hLe
  | some seq =>
      refine Safe.op (Due link kMsgPing payload) (due_stable link _ _) h (fun _ _ _ => trivial) ?_
      rintro past w sent w' ⟨⟨p, hTracks, hLe, hLog⟩, hClock⟩ rfl
      have hLater := hTracks.later hLe
      have hNew : pingLog (.did (.channelSend kMsgPong (encodePingSeq seq)) sent :: past) =
          { p.readClock (pingLog past).clock with asked := seq :: p.asked, answered := seq :: p.answered } := by
        change (pingLog past).say kMsgPong (encodePingSeq seq) = _
        rw [PingLog.say_pong, hLog, PingLog.hear_ping, hSeq]
        rfl
      refine Safe.ret (Q := fun _ => Following link) (following_stable link) ⟨?_, ?_⟩
      · rw [hNew]
        exact ⟨hLater.inFlight, hLater.sentAt, hLater.replied, congrArg (seq :: ·) hTracks.echoed⟩
      · rw [hNew]
        exact hClock

/-- Whatever is on its way is not the ping that this pong is for. -/
theorem tracks_stray (h : Tracks link p) {seq : UInt32} (hOther : link.pingInFlightSeq ≠ some seq) :
    Tracks link { p with replies := seq :: p.replies } where
  inFlight := h.inFlight
  sentAt := h.sentAt
  replied := by
    rw [h.replied]
    constructor
    · rintro ⟨last, sentAt, hPing, hMem⟩
      exact ⟨last, sentAt, hPing, List.mem_cons_of_mem _ hMem⟩
    · rintro ⟨last, sentAt, hPing, hMem⟩
      rcases List.mem_cons.mp hMem with rfl | hMem
      · by_contra hNone
        have hMeasured : p.measured = false := Bool.eq_false_iff.mpr fun hMeasured => hNone (h.replied.mp hMeasured)
        apply hOther
        rw [h.inFlight, hMeasured, if_neg Bool.false_ne_true, hPing]
        rfl
      · exact ⟨last, sentAt, hPing, hMem⟩
  echoed := h.echoed

/-- The pong of the ping that is on its way. -/
theorem tracks_measured (h : Tracks link p) {seq : UInt32} (hSame : link.pingInFlightSeq = some seq) :
    p.measured = false ∧ p.ping = some (seq, link.pingSentAt) ∧ link.pingSentAt ≤ p.clock ∧
      Tracks { link with pingInFlightSeq := none } { p with replies := seq :: p.replies, measured := true } := by
  have hFlight := h.inFlight
  rw [hSame] at hFlight
  cases hMeasured : p.measured with
  | true =>
      rw [hMeasured, if_pos rfl] at hFlight
      cases hFlight
  | false =>
      rw [hMeasured, if_neg Bool.false_ne_true] at hFlight
      obtain ⟨⟨_, sentAt⟩, hPing, rfl⟩ := Option.map_eq_some_iff.mp hFlight.symm
      obtain ⟨rfl, hLast, hBefore⟩ := h.sentAt _ _ hPing
      refine ⟨rfl, hPing, hBefore, rfl, h.sentAt, ?_, h.echoed⟩
      exact iff_of_true rfl ⟨_, _, hPing, List.mem_cons_self⟩

/-- Dealing with a pong displays the time since the ping if it is the first
one with its number, and ignores it otherwise. -/
theorem receivePong_safe (link : Link) (payload : List UInt8) (h : Due link kMsgPong payload past w) :
    Safe (connSystem allowed) measures (receivePong link payload) Following past w := by
  unfold receivePong
  cases hSeq : decodePingSeq payload with
  | none =>
      refine Safe.ret (Q := Following) (following_stable link) ?_
      obtain ⟨⟨p, hTracks, hLe, hLog⟩, hClock⟩ := h
      refine ⟨?_, hClock⟩
      rw [hLog, PingLog.hear_pong, hSeq]
      exact hTracks.later hLe
  | some seq =>
      by_cases hSame : link.pingInFlightSeq = some seq
      · simp only [hSame, if_true]
        refine due_now_op h fun past w h => ?_
        -- The time that was read is the last one for as long as nothing else is done.
        refine Safe.op (fun past' w => Due link kMsgPong payload past' w ∧ (pingLog past').clock = (pingLog past).clock)
          ((due_stable link _ _).and fun _ _ _ _ h _ => h) ⟨h, rfl⟩ ?_ ?_
        · rintro past' w ⟨⟨⟨p, hTracks, hLe, hLog⟩, -⟩, hRead⟩
          obtain ⟨hMeasured, hPing, hBefore, -⟩ := tracks_measured (hTracks.later hLe) hSame
          rw [PingLog.hear_pong, hSeq] at hLog
          refine ⟨?_, seq, link.pingSentAt, ?_, ?_, hBefore, ?_⟩
          · rw [hLog]
            exact hMeasured
          · rw [hLog]
            exact hPing
          · rw [hLog]
            rfl
          · rw [hRead]
        · rintro past' w _ w' ⟨⟨⟨p, hTracks, hLe, hLog⟩, hClock⟩, -⟩ rfl
          obtain ⟨-, -, -, hNew⟩ := tracks_measured (hTracks.later hLe) hSame
          rw [PingLog.hear_pong, hSeq] at hLog
          refine Safe.ret (Q := Following) (following_stable _) ⟨?_, hClock⟩
          change Tracks _ { pingLog past' with measured := true }
          rw [hLog]
          exact hNew
      · simp only [hSame, if_false]
        refine Safe.ret (Q := Following) (following_stable link) ?_
        obtain ⟨⟨p, hTracks, hLe, hLog⟩, hClock⟩ := h
        refine ⟨?_, hClock⟩
        rw [hLog, PingLog.hear_pong, hSeq]
        exact tracks_stray (hTracks.later hLe) hSame

theorem say_other (hPing : msgType ≠ kMsgPing) (hPong : msgType ≠ kMsgPong) : IsAside (.channelSend msgType payload) := by
  refine ⟨trivial, fun sent p => ?_⟩
  change p.say msgType payload = p
  rw [PingLog.say, if_neg hPing, if_neg hPong]

/-- A heartbeat is neither a ping nor a pong. -/
theorem sendHeartbeat_safe {now : Time} (h : FollowingAt link now past w) :
    Safe (connSystem allowed) measures (sendHeartbeat link now) (fun link => FollowingAt link now) past w := by
  unfold sendHeartbeat
  split
  · refine aside_at_op (say_other (by decide) (by decide)) h fun sent past w h => ?_
    refine .ret_of (FollowingAt { link with lastHeartbeatSent := now } now) (by rfl) (followingAt_stable _ now) ?_
    obtain ⟨⟨hTracks, hClock⟩, hRead⟩ := h
    exact ⟨⟨⟨hTracks.inFlight, hTracks.sentAt, hTracks.replied, hTracks.echoed⟩, hClock⟩, hRead⟩
  · exact .ret_of (FollowingAt link now) (by rfl) (followingAt_stable link now) h

/-- A ping is sent. -/
theorem tracks_sent (hEchoed : p.answered = p.asked) (link : Link) (seq : UInt32) :
    Tracks { link with pingInFlightSeq := some seq, pingSentAt := p.clock, nextPingSeq := seq + 1, lastPingSent := p.clock }
      (p.say kMsgPing (encodePingSeq seq)) := by
  rw [PingLog.say_ping]
  refine ⟨rfl, ?_, ?_, hEchoed⟩
  · rintro _ _ ⟨⟩
    exact ⟨rfl, rfl, Nat.le_refl _⟩
  · refine iff_of_false Bool.false_ne_true ?_
    rintro ⟨_, _, -, ⟨⟩⟩

/-- A ping is given up only for the next one. -/
theorem abandonProbe_eq (h : Tracks link p) {now : Time}
    (hQuiet : ¬((abandonProbe link now).pingInFlightSeq.isNone &&
      now - (abandonProbe link now).lastPingSent ≥ kHeartbeatInterval) = true) : abandonProbe link now = link := by
  unfold abandonProbe at hQuiet ⊢
  split at hQuiet
  · rename_i hLate
    rw [Bool.and_eq_true, decide_eq_true_eq] at hLate
    obtain ⟨seq, hFlight⟩ := Option.isSome_iff_exists.mp hLate.1
    obtain ⟨-, hPing, -, -⟩ := tracks_measured h hFlight
    obtain ⟨-, hLast, -⟩ := h.sentAt _ _ hPing
    have hDue : now - link.lastPingSent ≥ kHeartbeatInterval := by
      rw [hLast]
      exact Nat.le_trans (by decide : kHeartbeatInterval ≤ kPingProbeTimeout) hLate.2
    exact absurd (Bool.and_eq_true_iff.mpr ⟨rfl, decide_eq_true hDue⟩) hQuiet
  · rename_i hKept
    rw [if_neg hKept]

/-- A new ping takes the next number and the time of the clock into the
variables. -/
theorem sendProbe_safe {now : Time} (h : FollowingAt link now past w) :
    Safe (connSystem allowed) measures (sendProbe (abandonProbe link now) now) Following past w := by
  by_cases hSend : ((abandonProbe link now).pingInFlightSeq.isNone &&
      now - (abandonProbe link now).lastPingSent ≥ kHeartbeatInterval) = true
  · unfold sendProbe
    rw [if_pos hSend]
    refine Safe.op (FollowingAt link now) (followingAt_stable link now) h (fun _ _ _ => trivial) ?_
    rintro past w sent w' ⟨⟨hTracks, hClock⟩, rfl⟩ rfl
    refine Safe.ret (Q := Following) (following_stable _) ⟨tracks_sent hTracks.echoed _ _, ?_⟩
    exact Nat.le_trans (Nat.le_of_eq (congrArg PingLog.clock (PingLog.say_ping (pingLog past) _))) hClock
  · unfold sendProbe
    rw [if_neg hSend, abandonProbe_eq h.1.1 hSend]
    exact Safe.ret (Q := Following) (following_stable link) h.1

/-- The periodic part of a round keeps the variables in step with
what was sent. -/
theorem keepAlive_safe {now : Time} (h : FollowingAt link now past w) :
    Safe (connSystem allowed) measures (keepAlive link now) Following past w :=
  Safe.bind ((sendHeartbeat_safe h).mono fun _ _ _ h => sendProbe_safe h)

/-- Between two rounds, and after the last one. -/
abbrev AfterRound {σ : Type} (link : σ → Link) : σ ⊕ Unit → Assertion Op Ans Action World :=
  Sum.elim (fun x => Following (link x)) fun _ _ _ => True

theorem ended_safe {σ : Type} {link : σ → Link} :
    Safe (connSystem allowed) measures (.ret (.inr ())) (AfterRound link) past w :=
  .ret (fun _ _ _ _ _ _ => trivial) trivial

/-- A receive, and the rest of a round. -/
theorem receive_op {deadline : Time} {next : RecvResult → ConnProg α} {Q : α → Assertion Op Ans Action World}
    (h : Following link past w)
    (hNone : ∀ r past w, (∀ msgType payload, r ≠ .ok msgType payload) → Following link past w →
      Safe (connSystem allowed) measures (next r) Q past w)
    (hSome : ∀ msgType payload past w, Due link msgType payload past w →
      Safe (connSystem allowed) measures (next (.ok msgType payload)) Q past w) :
    Safe (connSystem allowed) measures (.op (.channelReceive deadline) next) Q past w := by
  apply Safe.op (Following link) (following_stable link) h (fun _ _ h => ⟨h.1.replied, h.1.echoed⟩)
  rintro past w r w' h rfl
  cases r with
  | ok msgType payload =>
      have hClock : ((pingLog past).hear msgType payload).clock = (pingLog past).clock := by
        unfold PingLog.hear
        split
        · rfl
        · split <;> rfl
      refine hSome msgType payload _ w' ⟨⟨pingLog past, h.1, ?_, rfl⟩, ?_⟩
      · exact Nat.le_of_eq hClock.symm
      · exact Nat.le_trans (Nat.le_of_eq hClock) h.2
  | _ => exact hNone _ _ w' nofun h

/-- When the peer was heard last plays no part in the measurement. -/
theorem following_heard (h : Following link past w) (t : Time) : Following { link with lastHeard := t } past w :=
  ⟨⟨h.1.inFlight, h.1.sentAt, h.1.replied, h.1.echoed⟩, h.2⟩

theorem due_heard (h : Due link msgType payload past w) (t : Time) :
    Due { link with lastHeard := t } msgType payload past w := by
  obtain ⟨⟨p, hTracks, hLog⟩, hClock⟩ := h
  exact ⟨⟨p, ⟨hTracks.inFlight, hTracks.sentAt, hTracks.replied, hTracks.echoed⟩, hLog⟩, hClock⟩

theorem ret_safe (h : Following link past w) :
    Safe (connSystem allowed) measures (.ret link) Following past w :=
  Safe.ret (Q := Following) (following_stable link) h

/-- One operation at most, which the log does not notice. -/
theorem done_op {o : Op} (hO : IsAside o) (h : Following link past w) :
    Safe (connSystem allowed) measures (.op o fun _ => .ret link) Following past w :=
  aside_op hO h fun _ _ _ h => ret_safe h

theorem answered_safe (h : Due link kMsgPing payload past w) :
    Safe (connSystem allowed) measures ((answerPing payload).bind fun _ => .ret link) Following past w :=
  Safe.bind ((answerPing_safe payload h).mono fun _ _ _ h => ret_safe h)

/-- The client deals with a ping or a pong as the log expects, and with other
messages without either. -/
theorem clientDispatch_safe (link : Link) (h : Due link msgType payload past w) :
    Safe (connSystem allowed) measures (TcpClient.dispatch link msgType payload) Following past w := by
  by_cases hPing : msgType = kMsgPing
  · subst hPing
    exact answered_safe h
  by_cases hPong : msgType = kMsgPong
  · subst hPong
    exact receivePong_safe link payload h
  have hFollowing := following_of_due hPing hPong h
  unfold TcpClient.dispatch
  rw [if_neg hPing, if_neg hPong]
  split
  · cases decodeAudioPort payload with
    | none => exact ret_safe hFollowing
    | some port => exact done_op ⟨trivial, fun _ _ => rfl⟩ hFollowing
  split
  · cases decodeAudioSettings payload with
    | none => exact ret_safe hFollowing
    | some settings => exact done_op ⟨trivial, fun _ _ => rfl⟩ hFollowing
  split
  · exact done_op ⟨trivial, fun _ _ => rfl⟩ hFollowing
  split
  · exact done_op ⟨trivial, fun _ _ => rfl⟩ hFollowing
  split
  · cases Input.dispatchInputMessage msgType payload with
    | none => exact ret_safe hFollowing
    | some call => exact done_op ⟨trivial, fun _ _ => rfl⟩ hFollowing
  · exact ret_safe hFollowing

/-- So does the server. -/
theorem serverDispatch_safe (link : Link) (h : Due link msgType payload past w) :
    Safe (connSystem allowed) measures (TcpServer.dispatch link msgType payload) Following past w := by
  by_cases hPing : msgType = kMsgPing
  · subst hPing
    exact answered_safe h
  by_cases hPong : msgType = kMsgPong
  · subst hPong
    exact receivePong_safe link payload h
  have hFollowing := following_of_due hPing hPong h
  unfold TcpServer.dispatch
  rw [if_neg hPing, if_neg hPong]
  split
  · cases decodeMonitorList payload with
    | none => exact ret_safe hFollowing
    | some monitors => exact done_op ⟨trivial, fun _ _ => rfl⟩ hFollowing
  split
  · cases decodeAudioSettings payload with
    | none => exact ret_safe hFollowing
    | some settings => exact done_op ⟨trivial, fun _ _ => rfl⟩ hFollowing
  split
  · exact done_op ⟨trivial, fun _ _ => rfl⟩ hFollowing
  · exact ret_safe hFollowing

/-- A check of the monitors sends no ping and no pong. -/
theorem checkMonitors_safe (x : TcpClient.Session) (now : Time) (h : Following x.link past w) :
    Safe (connSystem allowed) measures (TcpClient.checkMonitors x now) (fun x => Following x.link) past w := by
  have hRet : ∀ (y : TcpClient.Session) past w, Following y.link past w →
      Safe (connSystem allowed) measures (.ret y) (fun x => Following x.link) past w :=
    fun y past w h => .ret_of (Following y.link) (by rfl) (following_stable y.link) h
  unfold TcpClient.checkMonitors
  split
  · refine aside_op ⟨trivial, fun _ _ => rfl⟩ h fun monitors past w h => ?_
    simp only [Prog.ret_bind]
    split
    · exact aside_op (say_other (by decide) (by decide)) h fun _ past w h => hRet _ past w h
    · exact hRet _ past w h
  · exact hRet _ past w h

theorem clientRest_safe (c : TcpClient) (x : TcpClient.Session) (h : Following link past w) :
    Safe (connSystem allowed) measures (TcpClient.sessionRound.rest c x link) (AfterRound TcpClient.Session.link)
      past w := by
  refine now_op h fun past w h => ?_
  simp only [Prog.ret_bind]
  split
  · exact ended_safe
  · refine Safe.bind ((keepAlive_safe ⟨h, rfl⟩).mono fun link past w h => ?_)
    refine Safe.bind ((checkMonitors_safe { x with link := link } _ h).mono fun x past w h => ?_)
    exact .ret_of (Following x.link) (by rfl) (following_stable x.link) h

/-- A round of the client keeps its variables in step with the log. -/
theorem clientRound_safe (c : TcpClient) (x : TcpClient.Session) (h : Following x.link past w) :
    Safe (connSystem allowed) measures (TcpClient.sessionRound c x) (AfterRound TcpClient.Session.link) past w := by
  refine aside_op ⟨trivial, fun _ _ => rfl⟩ h fun running past w h => ?_
  cases running with
  | false => exact ended_safe
  | true =>
      refine now_op h fun past w h => ?_
      simp only [Prog.ret_bind]
      refine receive_op h (fun r past w hR h => ?_) fun msgType payload past w h => ?_
      · cases r with
        | closed => exact ended_safe
        | timeout => exact clientRest_safe c x h
        | error => exact now_op h fun past w h => clientRest_safe c x (following_heard h _)
        | ok msgType payload => exact absurd rfl (hR msgType payload)
      · refine due_now_op h fun past w h => ?_
        simp only [Prog.bind_def, Prog.ret_bind]
        exact Safe.bind ((clientDispatch_safe _ (due_heard h _)).mono fun link past w h => clientRest_safe c x h)

theorem serverRest_safe (h : Following link past w) :
    Safe (connSystem allowed) measures (TcpServer.sessionRound.rest link) (AfterRound id) past w := by
  refine now_op h fun past w h => ?_
  refine aside_at_op ⟨trivial, fun _ _ => rfl⟩ ⟨h, rfl⟩ fun heartbeatTimeout past w h => ?_
  simp only [Prog.ret_bind]
  split
  · exact ended_safe
  · refine Safe.bind ((keepAlive_safe h).mono fun link past w h => ?_)
    exact .ret_of (Following link) (by rfl) (following_stable link) h

/-- So does a round of the server. -/
theorem serverRound_safe (link : Link) (h : Following link past w) :
    Safe (connSystem allowed) measures (TcpServer.sessionRound link) (AfterRound id) past w := by
  refine aside_op ⟨trivial, fun _ _ => rfl⟩ h fun running past w h => ?_
  cases running with
  | false => exact ended_safe
  | true =>
      refine aside_op ⟨trivial, fun _ _ => rfl⟩ h fun requested past w h => ?_
      cases requested with
      | true => exact ended_safe
      | false =>
          refine now_op h fun past w h => ?_
          simp only [Prog.ret_bind]
          refine receive_op h (fun r past w hR h => ?_) fun msgType payload past w h => ?_
          · cases r with
            | closed => exact ended_safe
            | timeout => exact serverRest_safe h
            | error => exact now_op h fun past w h => serverRest_safe (following_heard h _)
            | ok msgType payload => exact absurd rfl (hR msgType payload)
          · refine due_now_op h fun past w h => ?_
            simp only [Prog.bind_def, Prog.ret_bind]
            exact Safe.bind ((serverDispatch_safe _ (due_heard h _)).mono fun link past w h => serverRest_safe h)

/-- The message loop of either side, with no ping on its way. -/
inductive FreshLoop : ConnProg Unit → Prop where
  | client (c : TcpClient) (x : TcpClient.Session) (hFresh : x.link.pingInFlightSeq = none) :
      FreshLoop (Prog.iterate x (TcpClient.sessionRound c))
  | server (link : Link) (hFresh : link.pingInFlightSeq = none) : FreshLoop (Prog.iterate link TcpServer.sessionRound)

/-- At the start of a session no ping is on its way, in the variables and in
the log. -/
theorem following_fresh (hFresh : link.pingInFlightSeq = none) (w : World) : Following link [] w := by
  refine ⟨⟨hFresh, nofun, iff_of_false Bool.false_ne_true ?_, rfl⟩, Nat.zero_le _⟩
  rintro ⟨_, _, ⟨⟩, -⟩

/-- In every run of either loop, what is displayed was measured, and every
ping that carries a number is answered. -/
theorem loop_safe {loop : ConnProg Unit} (hLoop : FreshLoop loop) (w : World) :
    Safe (connSystem allowed) measures loop (fun _ _ _ => True) [] w := by
  cases hLoop with
  | client c x hFresh =>
      apply Safe.iterate (fun x => Following x.link) (fun x => following_stable x.link) (fun _ _ _ _ _ _ _ => trivial)
        (following_fresh hFresh w)
      intro x past w h
      exact (clientRound_safe c x h).mono fun r past w h => by cases r <;> exact h
  | server link hFresh =>
      apply Safe.iterate Following following_stable (fun _ _ _ _ _ _ _ => trivial) (following_fresh hFresh w)
      intro link past w h
      exact (serverRound_safe link h).mono fun r past w h => by cases r <;> exact h

/-- Whatever the peer sends, a time that either side displays is the time
between its last ping and the first pong for it, and no such pong goes
unnoticed. Each ping of the peer that carries a number is answered once by a
pong with that number, in order. -/
theorem rtt_measured {loop : ConnProg Unit} (hLoop : FreshLoop loop) {init : World} {o : Op}
    {next : Ans o → ConnProg Unit} (run : Run (connSystem allowed) loop init past (.op o next) w) : measures o past w :=
  (loop_safe hLoop init).ok_of_run run

def usual (count : Nat) : List (Cue Action Choice) :=
  List.replicate count (.answer .usual)

/-- A second passes, a ping is sent, and its pong comes seven
milliseconds later. -/
def answeredPing : List (Cue Action Choice) :=
  .enter :: usual 2 ++ .answer (.time (seconds 1)) :: usual 5 ++ .enter :: usual 3 ++
    .answer (.message (.ok kMsgPong (encodePingSeq 0))) :: .answer (.time (milliseconds 1007)) :: usual 1

def serverLoop : ConnProg Unit := Prog.iterate SessionLoop.idleLink TcpServer.sessionRound

def displaysSeven (c : Config Op Ans Action World Unit) : Bool :=
  match c.prog with
  | .op (.updateStatus (.lastRttMs ms)) _ => ms = 7
  | _ => false

/-- The pong comes seven milliseconds after its ping, and seven
is displayed. -/
theorem rtt_measured_seven : ∃ (past : List ConnLabel) (next : Unit → ConnProg Unit) (w : World),
    Run (connSystem fun _ => True) serverLoop (World.fresh ⟨fun _ => none, fun _ => none⟩ []) past
      (.op (.updateStatus (.lastRttMs 7)) next) w ∧
    ∃ seq sentAt, (pingLog past).ping = some (seq, sentAt) ∧ (pingLog past).replies.head? = some seq := by
  obtain ⟨past, p, w, hRun, hSeven⟩ := (connPlayer fun _ => True).exists_run serverLoop
    (World.fresh ⟨fun _ => none, fun _ => none⟩ []) answeredPing displaysSeven (by decide +kernel)
  unfold displaysSeven at hSeven
  split at hSeven
  · rename_i ms next hProg
    obtain rfl : p = .op (.updateStatus (.lastRttMs ms)) next := hProg
    obtain rfl := of_decide_eq_true hSeven
    obtain ⟨-, seq, sentAt, hPing, hReply, -, -⟩ := rtt_measured (.server SessionLoop.idleLink rfl) hRun
    exact ⟨past, next, w, hRun, seq, sentAt, hPing, hReply⟩
  · cases hSeven

end NoCapKVM.Discovery.RoundTripTime
