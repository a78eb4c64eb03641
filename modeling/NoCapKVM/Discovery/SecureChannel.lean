import Mathlib.Algebra.Order.Ring.Nat
import NoCapKVM.Discovery.NoisePrimitives
import NoCapKVM.Discovery.Operations
import NoCapKVM.Thread.Termination

/-! `secure_channel.cpp`: length-prefixed encrypted frames on a socket. -/
namespace NoCapKVM.Discovery

open Codec Thread

def kFrameTimeout : Time := seconds 3
def kMaxFrameLen : UInt32 := (8 : UInt32) <<< 20

/-- What `recv` returns for a request of `len` bytes: `n > 0`, `n == 0`,
`n < 0`. -/
inductive RecvAnswer (len : Nat) where
  | data (bytes : {data : List UInt8 // 0 < data.length ∧ data.length ≤ len})
  | closed
  | failed

/-- The operations of a channel on its socket and on its counters. -/
inductive ChannelOp where
  | now
  | waitReadable (timeout : Time)
  | recv (len : Nat)
  | send (data : List UInt8) (count : Int32)
  | loadSendNonce
  | storeSendNonce (nonce : UInt64)
  | loadRecvNonce
  | storeRecvNonce (nonce : UInt64)

@[reducible] def ChannelAns : ChannelOp → Type
  | .now => Time
  | .waitReadable _ => Bool
  | .recv len => RecvAnswer len
  | .send .. => Int32
  | .loadSendNonce => UInt64
  | .loadRecvNonce => UInt64
  | _ => Unit

abbrev ChannelProg := Prog ChannelOp ChannelAns

namespace SecureChannel

abbrev perform (o : ChannelOp) : ChannelProg (ChannelAns o) := Prog.perform o

/-- `read_exact` with its out parameters. -/
inductive Exact (len : Nat) where
  | complete (bytes : Bytes UInt8 len)
  | closed
  | stalled

/-- The filled part of the buffer of a `read_exact`. -/
abbrev Partial (len : Nat) := {received : List UInt8 // received.length ≤ len}

def Partial.empty (len : Nat) : Partial len := ⟨[], Nat.zero_le len⟩

def Partial.append {len : Nat} (received : Partial len)
    (bytes : {data : List UInt8 // 0 < data.length ∧ data.length ≤ len - received.val.length}) :
    Partial len :=
  ⟨received.val ++ bytes.val, by
    have hReceived := received.property
    have hBytes := bytes.property
    rw [List.length_append]
    omega⟩

def readExact (len : Nat) (deadline : Time) : ChannelProg (Exact len) :=
  Prog.iterate (Partial.empty len) fun received => do
    if hLen : received.val.length = len then return .inr (.complete ⟨received.val, hLen⟩)
    if (← perform .now) ≥ deadline then return .inr .stalled
    match ← perform (.recv (len - received.val.length)) with
    | .data bytes => return .inl (received.append bytes)
    | .closed => return .inr .closed
    | .failed => return .inl received

/-- The length at the start of a frame. -/
def frameLen (lenBuf : Bytes UInt8 4) : UInt32 :=
  match lenBuf.val with
  | [a, b, c, d] => readBe32 a b c d
  | _ => 0

/-- What `receive` makes of a complete ciphertext. -/
def openFrame (na : Sodium UInt8) (recvKey : Key32 UInt8) (ciphertext : List UInt8) :
    ChannelProg RecvResult := do
  let nonce ← perform .loadRecvNonce
  match aeadDecrypt na recvKey nonce [] ciphertext with
  | none => return .error
  | some plaintext =>
      perform (.storeRecvNonce (nonce + 1))
      match plaintext with
      | [] => return .error
      | msgType :: payload => return .ok msgType payload

/-- `receive` once the length of the frame is known. -/
def receiveBody (na : Sodium UInt8) (recvKey : Key32 UInt8) (frameDeadline : Time) (ctLen : UInt32) :
    ChannelProg RecvResult := do
  if ctLen = 0 ∨ ctLen > kMaxFrameLen then return .error
  match ← readExact ctLen.toNat frameDeadline with
  | .closed => return .closed
  | .stalled => return .error
  | .complete ciphertext => openFrame na recvKey ciphertext.val

/-- `receive` once something is readable. -/
def receiveFrame (na : Sodium UInt8) (recvKey : Key32 UInt8) (frameDeadline : Time) :
    ChannelProg RecvResult := do
  match ← readExact 4 frameDeadline with
  | .closed => return .closed
  | .stalled => return .error
  | .complete lenBuf => receiveBody na recvKey frameDeadline (frameLen lenBuf)

def receive (na : Sodium UInt8) (recvKey : Key32 UInt8) (deadline : Time) : ChannelProg RecvResult := do
  let now ← perform .now
  let waitMs := if deadline > now then milliseconds ((deadline - now) / milliseconds 1) else 0
  if !(← perform (.waitReadable waitMs)) then return .timeout
  let frameDeadline := (← perform .now) + kFrameTimeout
  receiveFrame na recvKey frameDeadline

/-- `send_all`. The loop variable is the part of the data that is
still to be sent. -/
def sendAll (data : List UInt8) : ChannelProg Bool :=
  Prog.iterate data fun rest => do
    if rest = [] then return .inr true
    let n ← perform (.send rest (Int32.ofNat rest.length))
    if n ≤ 0 then return .inr false
    return .inl (rest.drop n.toInt.toNat)

def send (na : Sodium UInt8) (sendKey : Key32 UInt8) (msgType : UInt8) (payload : List UInt8) :
    ChannelProg Bool := do
  let plaintext := msgType :: payload
  let nonce ← perform .loadSendNonce
  let ciphertext := aeadEncrypt na sendKey nonce [] plaintext
  perform (.storeSendNonce (nonce + 1))
  let ctLen := ciphertext.length.toUInt32
  if ← sendAll (be32 ctLen) then sendAll ciphertext else return false

/-- How far a `receive` is: it waits, it has found the socket readable, or its
frame deadline counts from a time. -/
inductive Reading where
  | idle
  | due
  | since (t : Time)

def Reading.begin (now : Time) : Reading → Reading
  | .due => .since now
  | reading => reading

/-- A connected socket with the counters of its channel. `incoming` is what
the peer sends and `outgoing` what the system has accepted. -/
structure Socket where
  clock : Time := 0
  sendNonce : UInt64 := 0
  recvNonce : UInt64 := 0
  incoming : List UInt8 := []
  outgoing : List UInt8 := []
  reading : Reading := .idle

namespace Socket

/-- `send` accepts a part of its data, at most as much as it was asked to. A
negative count may fail, or count as a huge one. -/
def exec : (o : ChannelOp) → Socket → ChannelAns o → Socket → Prop
  | .now, s, r, s' => s.clock ≤ r ∧ s' = { s with clock := r, reading := s.reading.begin r }
  | .waitReadable _, s, r, s' => ∃ t, s.clock ≤ t ∧
      s' = { s with clock := t, reading := if r then .due else .idle }
  | .recv _, s, .data bytes, s' => ∃ rest, s.incoming = bytes.val ++ rest ∧
      s' = { s with incoming := rest }
  | .recv _, s, .closed, s' => s' = s
  | .recv _, s, .failed, s' => ∃ t, s.clock ≤ t ∧ s' = { s with clock := t }
  | .send data count, s, n, s' =>
      (n ≤ 0 ∧ s' = s) ∨
        (0 < n ∧ n.toInt ≤ data.length ∧ (0 ≤ count → n ≤ count) ∧
          s' = { s with outgoing := s.outgoing ++ data.take n.toInt.toNat })
  | .loadSendNonce, s, r, s' => r = s.sendNonce ∧ s' = s
  | .storeSendNonce nonce, s, _, s' => s' = { s with sendNonce := nonce }
  | .loadRecvNonce, s, r, s' => r = s.recvNonce ∧ s' = s
  | .storeRecvNonce nonce, s, _, s' => s' = { s with recvNonce := nonce }

/-- While a frame is read, the frame timeout does not pass. -/
def Timely : (o : ChannelOp) → Socket → ChannelAns o → Prop
  | .now, s, r => ∀ t, s.reading = .since t → r < t + kFrameTimeout
  | _, _, _ => True

/-- What the peer has sent is there to be read. -/
def Arrived : (o : ChannelOp) → ChannelAns o → Prop
  | .waitReadable _, r => r = true
  | .recv _, r => ∃ bytes, r = .data bytes
  | _, _ => True

end Socket

/-- The frame of a message. -/
def frame (na : Sodium UInt8) (key : Key32 UInt8) (nonce : UInt64) (msgType : UInt8)
    (payload : List UInt8) : List UInt8 :=
  let ciphertext := aeadEncrypt na key nonce [] (msgType :: payload)
  be32 ciphertext.length.toUInt32 ++ ciphertext

@[simp] theorem kMaxFrameLen_toNat : kMaxFrameLen.toNat = 8388608 := rfl

@[simp] theorem frameLen_be32 (v : UInt32) (h : (be32 v).length = 4) : frameLen ⟨be32 v, h⟩ = v :=
  readBe32_be32 v

/-- A ciphertext is longer than its payload by the type of the message
and the tag. -/
theorem ciphertext_length {na : Sodium UInt8} (hNa : na.AeadContract) (key : Key32 UInt8)
    (nonce : UInt64) (msgType : UInt8) (payload : List UInt8) :
    (aeadEncrypt na key nonce [] (msgType :: payload)).length = payload.length + 17 := by
  rw [aeadEncrypt, hNa.encrypt_length, List.length_cons]

/-- A frame that is not too long, taken apart. -/
theorem frame_eq {na : Sodium UInt8} (hNa : na.AeadContract) {key : Key32 UInt8} {nonce : UInt64}
    {msgType : UInt8} {payload : List UInt8} (hShort : payload.length + 17 ≤ kMaxFrameLen.toNat) :
    ∃ ctLen ciphertext, frame na key nonce msgType payload = be32 ctLen ++ ciphertext ∧
      ¬ (ctLen = 0 ∨ ctLen > kMaxFrameLen) ∧ ciphertext.length = ctLen.toNat ∧
      aeadDecrypt na key nonce [] ciphertext = some (msgType :: payload) := by
  have hLen := ciphertext_length hNa key nonce msgType payload
  have hCtLen : (payload.length + 17).toUInt32.toNat = payload.length + 17 := by
    apply UInt32.toNat_ofNat_of_lt'
    rw [kMaxFrameLen_toNat] at hShort
    rw [UInt32.size]
    omega
  refine ⟨(payload.length + 17).toUInt32, _, by rw [frame, hLen], ?_, hLen.trans hCtLen.symm,
    hNa.decrypt_encrypt ..⟩
  rintro (hZero | hLong)
  · rw [hZero] at hCtLen
    cases hCtLen
  · rw [GT.gt, UInt32.lt_iff_toNat_lt, hCtLen] at hLong
    omega

section Arrived

/-- The operations of a channel on an intact connection: what was sent is
there, and is read before the frame timeout. -/
def intact (o : ChannelOp) (s : Socket) (r : ChannelAns o) (s' : Socket) : Prop :=
  s.exec o r s' ∧ s.Timely o r ∧ Socket.Arrived o r

/-- A shorter start of the same stream is a start of the other one. -/
theorem append_eq_append_of_length_le {α : Type} {first rest more rest' : List α}
    (h : first ++ rest = more ++ rest') (hLen : first.length ≤ more.length) :
    ∃ more', more = first ++ more' ∧ rest = more' ++ rest' := by
  have hPrefix : first <+: more :=
    List.prefix_of_prefix_length_le (List.prefix_append first rest) ⟨rest', h.symm⟩ hLen
  obtain ⟨more', rfl⟩ := hPrefix
  rw [List.append_assoc] at h
  exact ⟨more', rfl, List.append_cancel_left h⟩

/-- On an intact connection a read of bytes that have been sent returns just
these, before its deadline. -/
theorem readExact_returns {len : Nat} {deadline t : Time} {bytes rest : List UInt8} {s : Socket}
    (hDeadline : t + kFrameTimeout = deadline) (hSince : s.reading = .since t)
    (hClock : s.clock < deadline) (hLen : bytes.length = len) (hIncoming : s.incoming = bytes ++ rest) :
    Returns intact (fun a s' => a = .complete ⟨bytes, hLen⟩ ∧ s'.incoming = rest ∧
      s'.reading = .since t ∧ s'.clock < deadline ∧ s'.recvNonce = s.recvNonce)
      (readExact len deadline) s := by
  refine .iterate (fun received s' => ∃ more, bytes = received.val ++ more ∧
    s'.incoming = more ++ rest ∧ s'.reading = .since t ∧ s'.clock < deadline ∧
    s'.recvNonce = s.recvNonce) (fun _ s' => s'.incoming.length) ?_
    ⟨bytes, rfl, hIncoming, hSince, hClock, rfl⟩
  rintro received s' ⟨more, rfl, hMore, hSince', hClock', hNonce⟩
  have hSum : received.val.length + more.length = len := (List.length_append ..).symm.trans hLen
  by_cases hFull : received.val.length = len
  · have hNil : more = [] := List.eq_nil_of_length_eq_zero (by omega)
    subst hNil
    rw [dif_pos hFull]
    refine .ret ⟨?_, hMore, hSince', hClock', hNonce⟩
    simp
  · rw [dif_neg hFull]
    refine .op ⟨s'.clock, _, ⟨Nat.le_refl _, rfl⟩, ?_, trivial⟩ ?_
    · intro t' hT
      obtain rfl : t = t' := Reading.since.inj (hSince'.symm.trans hT)
      exact hDeadline ▸ hClock'
    rintro now s₁ ⟨⟨-, rfl⟩, hTimely, -⟩
    have hEarly : now < deadline := hDeadline ▸ hTimely t hSince'
    have hMissing : 0 < more.length ∧ more.length ≤ len - received.val.length := by omega
    rw [Prog.ret_bind, if_neg (Nat.not_le.mpr hEarly)]
    refine .op ⟨.data ⟨more, hMissing⟩, _, ⟨rest, hMore, rfl⟩, trivial, ⟨_, rfl⟩⟩ ?_
    rintro answer s₂ ⟨hExec, -, bytes, rfl⟩
    obtain ⟨rest', hRest, rfl⟩ := hExec
    obtain ⟨more', rfl, rfl⟩ := append_eq_append_of_length_le (hRest.symm.trans hMore)
      (by have hBytes := bytes.property; omega)
    refine .ret ⟨⟨more', (List.append_assoc ..).symm, rfl, congrArg (Reading.begin now) hSince', hEarly,
      hNonce⟩, ?_⟩
    have hRead := bytes.property.1
    rw [hMore]
    simp only [List.length_append]
    omega

/-- The wait at the start of a `receive`. -/
theorem receive_begins {na : Sodium UInt8} {key : Key32 UInt8} {deadline : Time} {s : Socket}
    {Q : RecvResult → Socket → Prop} (hIdle : s.reading = .idle)
    (hNext : ∀ t frameDeadline s', t + kFrameTimeout = frameDeadline → s'.reading = .since t →
      s'.clock < frameDeadline → s'.incoming = s.incoming → s'.recvNonce = s.recvNonce →
      Returns intact Q (receiveFrame na key frameDeadline) s') :
    Returns intact Q (receive na key deadline) s := by
  refine .op ⟨s.clock, _, ⟨Nat.le_refl _, rfl⟩, ?_, trivial⟩ ?_
  · intro t hT
    cases hIdle.symm.trans hT
  rintro now s₁ ⟨⟨-, rfl⟩, -, -⟩
  refine .op ⟨true, _, ⟨now, Nat.le_refl _, rfl⟩, trivial, rfl⟩ ?_
  rintro readable s₂ ⟨⟨t, -, rfl⟩, -, rfl⟩
  refine .op ⟨t, _, ⟨Nat.le_refl _, rfl⟩, ?_, trivial⟩ ?_
  · rintro t' ⟨⟩
  rintro start s₃ ⟨⟨-, rfl⟩, -, -⟩
  exact hNext start _ _ rfl rfl (Nat.lt_add_of_pos_right (by decide)) rfl rfl

/-- A frame that decrypts is delivered, and nothing behind it is touched. -/
theorem receive_ok {na : Sodium UInt8} {key : Key32 UInt8} {deadline : Time} {s : Socket}
    {ctLen : UInt32} {ciphertext later payload : List UInt8} {msgType : UInt8}
    (hIdle : s.reading = .idle) (hIncoming : s.incoming = be32 ctLen ++ (ciphertext ++ later))
    (hValid : ¬ (ctLen = 0 ∨ ctLen > kMaxFrameLen)) (hLen : ciphertext.length = ctLen.toNat)
    (hOpen : aeadDecrypt na key s.recvNonce [] ciphertext = some (msgType :: payload)) :
    Returns intact (fun r s' => r = .ok msgType payload ∧ s'.incoming = later ∧
      s'.recvNonce = s.recvNonce + 1) (receive na key deadline) s := by
  refine receive_begins hIdle fun t frameDeadline s' hDeadline hSince hClock hSame hNonce => ?_
  refine .bind ((readExact_returns hDeadline hSince hClock (be32_length ctLen)
    (hSame.trans hIncoming)).mono ?_)
  rintro _ s₁ ⟨rfl, hIncoming₁, hSince₁, hClock₁, hNonce₁⟩
  simp only [frameLen_be32]
  rw [receiveBody, if_neg hValid]
  refine .bind ((readExact_returns hDeadline hSince₁ hClock₁ hLen hIncoming₁).mono ?_)
  rintro _ s₂ ⟨rfl, hIncoming₂, -, -, hNonce₂⟩
  have hExpected : s₂.recvNonce = s.recvNonce := hNonce₂.trans (hNonce₁.trans hNonce)
  refine .op ⟨s₂.recvNonce, s₂, ⟨rfl, rfl⟩, trivial, trivial⟩ ?_
  rintro _ _ ⟨⟨rfl, rfl⟩, -, -⟩
  rw [Prog.ret_bind, hExpected, hOpen]
  refine .op ⟨(), _, rfl, trivial, trivial⟩ ?_
  rintro _ _ ⟨rfl, -, -⟩
  exact .ret ⟨rfl, hIncoming₂, rfl⟩

/-- A frame that is announced as longer than allowed is refused at once. -/
theorem receive_tooLong {na : Sodium UInt8} {key : Key32 UInt8} {deadline : Time} {s : Socket}
    {ctLen : UInt32} {later : List UInt8} (hIdle : s.reading = .idle)
    (hIncoming : s.incoming = be32 ctLen ++ later) (hLong : ctLen > kMaxFrameLen) :
    Returns intact (fun r _ => r = .error) (receive na key deadline) s := by
  refine receive_begins hIdle fun t frameDeadline s' hDeadline hSince hClock hSame hNonce => ?_
  refine .bind ((readExact_returns hDeadline hSince hClock (be32_length ctLen)
    (hSame.trans hIncoming)).mono ?_)
  rintro _ s₁ ⟨rfl, -⟩
  simp only [frameLen_be32]
  rw [receiveBody, if_pos (Or.inr hLong)]
  exact .ret rfl

end Arrived

theorem alone_stable {exec : (o : ChannelOp) → Socket → ChannelAns o → Socket → Prop}
    (P : Assertion ChannelOp ChannelAns Empty Socket) : Stable (alone exec) P :=
  fun _ _ a => nomatch a

section Timely

/-- The operations of a channel whose peer completes what it has begun before
the frame timeout. It may close the connection at any time. -/
def timely (o : ChannelOp) (s : Socket) (r : ChannelAns o) (s' : Socket) : Prop :=
  s.exec o r s' ∧ s.Timely o r

/-- The end of the peer's stream was read. -/
def HungUp (past : List (Label ChannelOp ChannelAns Empty)) : Prop :=
  ∃ len, .did (.recv len) .closed ∈ past

/-- A complete read has taken exactly the next bytes, and there
is no stall. -/
def ReadNext (s : Socket) (t : Time) {len : Nat} (a : Exact len)
    (past : List (Label ChannelOp ChannelAns Empty)) (s' : Socket) : Prop :=
  (a = .closed ∧ HungUp past) ∨ ∃ bytes, a = .complete bytes ∧ s.incoming = bytes.val ++ s'.incoming ∧
    s'.reading = .since t ∧ s'.recvNonce = s.recvNonce

/-- Where the peer is in time, a read returns the next bytes or finds the
stream closed. It never stalls. -/
theorem readExact_safe {len : Nat} {deadline t : Time} {s : Socket}
    (hDeadline : t + kFrameTimeout = deadline) (hSince : s.reading = .since t)
    (past : List (Label ChannelOp ChannelAns Empty)) :
    Safe (alone timely) (fun _ _ _ => True) (readExact len deadline) (ReadNext s t) past s := by
  refine .iterate (fun received _ s' => s.incoming = received.val ++ s'.incoming ∧
    s'.reading = .since t ∧ s'.recvNonce = s.recvNonce) (fun _ => alone_stable _)
    (fun _ => alone_stable _) ⟨rfl, hSince, rfl⟩ ?_
  rintro received past s' ⟨hIncoming, hSince', hNonce⟩
  by_cases hFull : received.val.length = len
  · rw [dif_pos hFull]
    exact .ret (alone_stable _) (Or.inr ⟨_, rfl, hIncoming, hSince', hNonce⟩)
  rw [dif_neg hFull]
  refine Safe.op (fun _ s'' => s'' = s') (alone_stable _) rfl (fun _ _ _ => trivial) ?_
  rintro past s' now s₁ rfl ⟨⟨-, rfl⟩, hTimely⟩
  have hEarly : now < deadline := hDeadline ▸ hTimely t hSince'
  rw [Prog.ret_bind, if_neg (Nat.not_le.mpr hEarly)]
  refine Safe.op (fun _ s'' => s''.incoming = s'.incoming ∧ s''.reading = .since t ∧
    s''.recvNonce = s.recvNonce) (alone_stable _) ⟨rfl, congrArg (Reading.begin now) hSince', hNonce⟩
    (fun _ _ _ => trivial) ?_
  rintro past s₂ answer s₃ ⟨hSame, hSince₂, hNonce₂⟩ ⟨hExec, -⟩
  cases answer with
  | data bytes =>
      obtain ⟨rest, hRest, rfl⟩ := hExec
      refine .ret (alone_stable _) ⟨?_, hSince₂, hNonce₂⟩
      rw [hIncoming, ← hSame, hRest]
      exact (List.append_assoc ..).symm
  | closed => exact .ret (alone_stable _) (Or.inl ⟨rfl, _, List.mem_cons_self⟩)
  | failed =>
      obtain ⟨t', -, rfl⟩ := hExec
      exact .ret (alone_stable _) ⟨hIncoming.trans (by rw [hSame]), hSince₂, hNonce₂⟩

end Timely

section Sending

/-- A send never accepts bytes across a multiple of 2 ^ 32 of what is left. -/
theorem accepted_le_mod {n : Int32} {len : Nat}
    (hCount : 0 ≤ Int32.ofNat len → n ≤ Int32.ofNat len) : n.toInt.toNat ≤ len % 2 ^ 32 := by
  have hMax := Int32.toInt_lt n
  have hWrap : (Int32.ofNat len).toInt = (len : Int).bmod (2 ^ 32) := Int32.toInt_ofNat'
  rw [Int32.le_iff_toInt_le, Int32.le_iff_toInt_le, hWrap, Int.bmod_def] at hCount
  have hZero : (0 : Int32).toInt = 0 := rfl
  rw [hZero] at hCount
  omega

/-- A send that succeeds has put all of its data on the wire, and the data are
shorter than the count of the system can tell. -/
theorem sendAll_safe (data : List UInt8) (past : List (Label ChannelOp ChannelAns Empty)) (s : Socket) :
    Safe (alone Socket.exec) (fun _ _ _ => True) (sendAll data)
      (fun b _ s' => b = true → data.length < 2 ^ 32 ∧ s'.outgoing = s.outgoing ++ data ∧
        s'.sendNonce = s.sendNonce) past s := by
  refine .iterate (fun rest _ s' => ∃ done, data = done ++ rest ∧ s'.outgoing = s.outgoing ++ done ∧
    data.length / 2 ^ 32 = rest.length / 2 ^ 32 ∧ s'.sendNonce = s.sendNonce)
    (fun _ => alone_stable _) (fun _ => alone_stable _) ⟨[], rfl, (List.append_nil _).symm, rfl, rfl⟩ ?_
  rintro rest past s' ⟨done, rfl, hOut, hHigh, hNonce⟩
  by_cases hNil : rest = []
  · rw [if_pos hNil]
    refine .ret (alone_stable _) ?_
    subst hNil
    refine fun _ => ⟨?_, by rw [hOut, List.append_nil], hNonce⟩
    simp only [List.length_nil, Nat.zero_div] at hHigh
    omega
  · rw [if_neg hNil]
    refine Safe.op (fun _ s'' => s'' = s') (alone_stable _) rfl (fun _ _ _ => trivial) ?_
    rintro past _ n s'' rfl hExec
    rw [Prog.ret_bind]
    by_cases hN : n ≤ 0
    · rw [if_pos hN]
      exact .ret (alone_stable _) (fun h => nomatch h)
    · rw [if_neg hN]
      refine .ret (alone_stable _) ?_
      rcases hExec with ⟨hNot, -⟩ | ⟨-, hFits, hCount, rfl⟩
      · exact absurd hNot hN
      have hMod := accepted_le_mod hCount
      refine ⟨done ++ rest.take n.toInt.toNat, ?_, ?_, ?_, hNonce⟩
      · rw [List.append_assoc, List.take_append_drop]
      · rw [hOut, List.append_assoc]
      · rw [hHigh, List.length_drop]
        omega

/-- So a message that was sent is one whole frame, under the next nonce. -/
theorem send_safe {na : Sodium UInt8} {key : Key32 UInt8} {msgType : UInt8} {payload : List UInt8}
    (past : List (Label ChannelOp ChannelAns Empty)) (s : Socket) :
    Safe (alone Socket.exec) (fun _ _ _ => True) (send na key msgType payload)
      (fun b _ s' => b = true →
        (aeadEncrypt na key s.sendNonce [] (msgType :: payload)).length < 2 ^ 32 ∧
        s'.outgoing = s.outgoing ++ frame na key s.sendNonce msgType payload ∧
        s'.sendNonce = s.sendNonce + 1) past s := by
  refine Safe.op (fun _ s' => s' = s) (alone_stable _) rfl (fun _ _ _ => trivial) ?_
  rintro past s _ s rfl ⟨rfl, rfl⟩
  refine Safe.op (fun _ s' => s' = s) (alone_stable _) rfl (fun _ _ _ => trivial) ?_
  rintro past _ _ _ rfl rfl
  simp only [Prog.ret_bind]
  refine Safe.bind ((sendAll_safe _ _ _).mono ?_)
  intro sentLen past s₁ hLen
  cases sentLen with
  | false => exact .ret (alone_stable _) (fun h => nomatch h)
  | true =>
      obtain ⟨-, hOut, hNonce⟩ := hLen rfl
      refine (sendAll_safe _ _ _).mono ?_
      intro sentAll past s₂ hAll hTrue
      obtain ⟨hShort, hOut₂, hNonce₂⟩ := hAll hTrue
      refine ⟨hShort, ?_, hNonce₂.trans hNonce⟩
      rw [hOut₂, hOut, frame, List.append_assoc]

/-- A send that succeeds has put exactly its frame on the wire. -/
theorem send_true {na : Sodium UInt8} {key : Key32 UInt8} {msgType : UInt8} {payload : List UInt8}
    {past : List (Label ChannelOp ChannelAns Empty)} {s s' : Socket}
    (run : Run (alone Socket.exec) (send na key msgType payload) s past (.ret true) s') :
    (aeadEncrypt na key s.sendNonce [] (msgType :: payload)).length < 2 ^ 32 ∧
    s'.outgoing = s.outgoing ++ frame na key s.sendNonce msgType payload ∧
    s'.sendNonce = s.sendNonce + 1 :=
  (send_safe [] s).result run rfl

/-- Every piece is accepted as far as a positive count can say. -/
def eager (o : ChannelOp) (s : Socket) (r : ChannelAns o) (s' : Socket) : Prop :=
  s.exec o r s' ∧ match o, r with
    | .send data _, n => n = Int32.ofNat (min data.length (2 ^ 31 - 1))
    | _, _ => True

/-- Up to 2 ^ 32 - 1 bytes can all be accepted. -/
theorem sendAll_returns {data : List UInt8} (hShort : data.length < 2 ^ 32) (s : Socket) :
    Returns eager (fun b _ => b = true) (sendAll data) s := by
  refine .iterate (fun rest _ => rest.length < 2 ^ 32) (fun rest _ => rest.length) ?_ hShort
  intro rest s' hRest
  by_cases hNil : rest = []
  · rw [if_pos hNil]
    exact .ret rfl
  · rw [if_neg hNil]
    have hPos : 0 < rest.length := List.length_pos_iff.mpr hNil
    have hAccepted : (Int32.ofNat (min rest.length (2 ^ 31 - 1))).toInt = (min rest.length (2 ^ 31 - 1) : Nat) :=
      Int32.toInt_ofNat_of_lt (by omega)
    have hNot : ¬ Int32.ofNat (min rest.length (2 ^ 31 - 1)) ≤ 0 := by
      rw [Int32.le_iff_toInt_le, hAccepted, Int32.toInt_zero]
      omega
    have hCount : 0 ≤ Int32.ofNat rest.length →
        Int32.ofNat (min rest.length (2 ^ 31 - 1)) ≤ Int32.ofNat rest.length := by
      have hWrap : (Int32.ofNat rest.length).toInt = (rest.length : Int).bmod (2 ^ 32) :=
        Int32.toInt_ofNat'
      rw [Int32.le_iff_toInt_le, Int32.le_iff_toInt_le, hAccepted, hWrap, Int.bmod_def, Int32.toInt_zero]
      omega
    refine .op ⟨_, _, Or.inr ⟨Int32.not_le.mp hNot, ?_, hCount, rfl⟩, rfl⟩ ?_
    · rw [hAccepted]
      omega
    rintro n s'' ⟨hExec, rfl⟩
    rw [Prog.ret_bind, if_neg hNot]
    refine .ret ?_
    simp only [Sum.elim_inl, List.length_drop, hAccepted]
    omega

/-- A message that is not too long is sent, if the system takes what
it is given. -/
theorem send_returns {na : Sodium UInt8} {key : Key32 UInt8} {msgType : UInt8} {payload : List UInt8}
    {s : Socket} (hShort : (aeadEncrypt na key s.sendNonce [] (msgType :: payload)).length < 2 ^ 32) :
    Returns eager (fun b _ => b = true) (send na key msgType payload) s := by
  refine .op ⟨_, _, ⟨rfl, rfl⟩, trivial⟩ ?_
  rintro nonce s₁ ⟨⟨rfl, rfl⟩, -⟩
  refine .op ⟨(), _, rfl, trivial⟩ ?_
  rintro _ s₂ ⟨rfl, -⟩
  have hHeader : ∀ v, (be32 v).length < 2 ^ 32 := by
    intro v
    rw [be32_length]
    decide
  rw [Prog.ret_bind]
  refine .bind ((sendAll_returns (hHeader _) _).mono ?_)
  rintro _ s₃ rfl
  exact sendAll_returns hShort s₃

end Sending

end SecureChannel
end NoCapKVM.Discovery
