import NoCapKVM.Audio.Channel
import NoCapKVM.Discovery.SecureChannel

/-! The records of a session: what its secure channel and its audio channel encrypt, and what
they take, over any alphabet. The calls of `SecureChannel` and `AudioChannel` do nothing else. -/
namespace NoCapKVM.Discovery

open Audio Codec Thread SecureChannel

variable {Byte : Type}

/-- What has gone through the secure channel and the audio channel of a
session. -/
structure Records (Byte : Type) where
  frames : List (List Byte) := []
  accepted : List (List Byte) := []
  packets : List (UInt32 × List Byte) := []
  heard : List (UInt32 × List Byte) := []

namespace Records

def send (rs : Records Byte) (plaintext : List Byte) : Records Byte := { rs with frames := rs.frames ++ [plaintext] }

def accept (rs : Records Byte) (plaintext : List Byte) : Records Byte :=
  { rs with accepted := rs.accepted ++ [plaintext] }

def sendTo (rs : Records Byte) (seq : UInt32) (data : List Byte) : Records Byte :=
  { rs with packets := rs.packets ++ [(seq, data)] }

def hear (rs : Records Byte) (seq : UInt32) (data : List Byte) : Records Byte :=
  { rs with heard := rs.heard ++ [(seq, data)] }

end Records

/-- One record, under the keys of the frames and those of the packets. `said`
is what the session has chosen, `out` the ciphertext that goes out and `taken`
the one that came in. Frames are counted in each direction, and a packet
carries its number. -/
inductive RecordStep (na : Sodium Byte) (keys audioKeys : TransportKeys Byte) :
    Records Byte → (said out taken : List Byte) → Records Byte → Prop where
  | sendFrame (rs : Records Byte) (plaintext : List Byte) :
      RecordStep na keys audioKeys rs plaintext
        (aeadEncrypt na keys.sendKey (UInt64.ofNat rs.frames.length) [] plaintext) [] (rs.send plaintext)
  | acceptFrame {rs : Records Byte} {ciphertext plaintext : List Byte}
      (hOpens : aeadDecrypt na keys.recvKey (UInt64.ofNat rs.accepted.length) [] ciphertext = some plaintext) :
      RecordStep na keys audioKeys rs [] [] ciphertext (rs.accept plaintext)
  | sendPacket (rs : Records Byte) (seq : UInt32) (data : List Byte) :
      RecordStep na keys audioKeys rs data (aeadEncrypt na audioKeys.sendKey seq.toUInt64 [] data) []
        (rs.sendTo seq data)
  | hearPacket {rs : Records Byte} {seq : UInt32} {ciphertext data : List Byte}
      (hOpens : aeadDecrypt na audioKeys.recvKey seq.toUInt64 [] ciphertext = some data) :
      RecordStep na keys audioKeys rs [] [] ciphertext (rs.hear seq data)

/-- No nonce is used twice: neither counter of the frames has wrapped, and the
packets that were sent have different numbers. -/
structure Records.Fresh (rs : Records Byte) : Prop where
  frames : rs.frames.length ≤ 2 ^ 64
  accepted : rs.accepted.length ≤ 2 ^ 64
  packets : (rs.packets.map Prod.fst).Nodup

/-- A call, with what it has returned. -/
inductive ChannelCall where
  | send (msgType : UInt8) (payload : List UInt8)
  | receive (r : RecvResult)
  | sendTo (seq : UInt32) (data : List UInt8)
  | receiveNonblocking (r : Option (UInt32 × List UInt8))

/-- A call that has returned, with the bytes that it has put on the network
and those that it has taken from there. The send counter of an `AudioChannel`
may be any: the program makes a new channel under the same key when it starts
to stream again. -/
inductive Called (na : Sodium UInt8) (keys audioKeys : TransportKeys UInt8) :
    Socket → ChannelCall → (sent taken : List UInt8) → Socket → Prop where
  | send {s s' : Socket} {msgType : UInt8} {payload sent taken : List UInt8} {b : Bool}
      {past : List (Label ChannelOp ChannelAns Empty)}
      (run : Run (alone Socket.exec) (send na keys.sendKey msgType payload) s past (.ret b) s')
      (hSent : s'.outgoing = s.outgoing ++ sent) (hTaken : s.incoming = taken ++ s'.incoming) :
      Called na keys audioKeys s (.send msgType payload) sent taken s'
  | receive {s s' : Socket} {deadline : Time} {r : RecvResult} {sent taken : List UInt8}
      {past : List (Label ChannelOp ChannelAns Empty)}
      (run : Run (alone Socket.exec) (receive na keys.recvKey deadline) s past (.ret r) s')
      (hSent : s'.outgoing = s.outgoing ++ sent) (hTaken : s.incoming = taken ++ s'.incoming) :
      Called na keys audioKeys s (.receive r) sent taken s'
  | sendTo (s : Socket) {channel : AudioChannel} (hKey : channel.key = audioKeys.sendKey) (data : List UInt8) :
      Called na keys audioKeys s (.sendTo channel.sendSeq data) ((channel.sendTo data).1.bytes na) [] s
  | receiveNonblocking (s : Socket) (packet : List UInt8) :
      Called na keys audioKeys s (.receiveNonblocking (decodeFrame na audioKeys.recvKey packet)) [] packet s

/-- The records after a call. A frame that decrypts to nothing is an error,
and it counts. -/
inductive Records.After (rs : Records UInt8) : ChannelCall → Records UInt8 → Prop where
  | send (msgType : UInt8) (payload : List UInt8) : After rs (.send msgType payload) (rs.send (msgType :: payload))
  | receive (msgType : UInt8) (payload : List UInt8) :
      After rs (.receive (.ok msgType payload)) (rs.accept (msgType :: payload))
  | empty : After rs (.receive .error) (rs.accept [])
  | nothing {r : RecvResult} (h : ∀ msgType payload, r ≠ .ok msgType payload) : After rs (.receive r) rs
  | sendTo (seq : UInt32) (data : List UInt8) : After rs (.sendTo seq data) (rs.sendTo seq data)
  | hear (seq : UInt32) (data : List UInt8) : After rs (.receiveNonblocking (some (seq, data))) (rs.hear seq data)
  | lost : After rs (.receiveNonblocking none) rs

/-- The counters of a channel are those of the records. -/
structure Records.Counted (rs : Records UInt8) (s : Socket) : Prop where
  sendNonce : s.sendNonce = UInt64.ofNat rs.frames.length
  recvNonce : s.recvNonce = UInt64.ofNat rs.accepted.length

/-- At most one record stands for a call. What the call puts on the
network is a start of the record after a number of four bytes, and so is
what it takes. -/
inductive Stands (na : Sodium UInt8) (keys audioKeys : TransportKeys UInt8) (rs : Records UInt8) :
    (sent taken : List UInt8) → Records UInt8 → Prop where
  | nothing (taken : List UInt8) : Stands na keys audioKeys rs [] taken rs
  | sends {said out sent : List UInt8} {rs' : Records UInt8} (step : RecordStep na keys audioKeys rs said out [] rs')
      (header : UInt32) (hStart : sent <+: be32 header ++ out) : Stands na keys audioKeys rs sent [] rs'
  | takes {record : List UInt8} {rs' : Records UInt8} (step : RecordStep na keys audioKeys rs [] [] record rs')
      (header : UInt32) : Stands na keys audioKeys rs [] (be32 header ++ record) rs'

namespace SecureChannel

/-- The length of a frame is that of its first four bytes. -/
theorem be32_frameLen (lenBuf : Bytes UInt8 4) : be32 (frameLen lenBuf) = lenBuf.val := by
  obtain ⟨data, hLen⟩ := lenBuf
  obtain ⟨a, b, c, d, rfl⟩ := List.length_eq_four.mp hLen
  exact be32_readBe32 a b c d

/-- A read has taken bytes from the stream and has changed nothing else
that counts. -/
structure Took (s : Socket) (taken : List UInt8) (s' : Socket) : Prop where
  incoming : s.incoming = taken ++ s'.incoming
  outgoing : s'.outgoing = s.outgoing
  sendNonce : s'.sendNonce = s.sendNonce
  recvNonce : s'.recvNonce = s.recvNonce

theorem Took.refl (s : Socket) : Took s [] s := ⟨rfl, rfl, rfl, rfl⟩

/-- What two reads have taken, both together have taken in this order. -/
theorem Took.trans {s s' s'' : Socket} {first second : List UInt8} (h : Took s first s') (h' : Took s' second s'') :
    Took s (first ++ second) s'' where
  incoming := by rw [h.incoming, h'.incoming, List.append_assoc]
  outgoing := h'.outgoing.trans h.outgoing
  sendNonce := h'.sendNonce.trans h.sendNonce
  recvNonce := h'.recvNonce.trans h.recvNonce

/-- The clock and the deadline of the frame do not count. -/
theorem Took.clock {s s' : Socket} {taken : List UInt8} {t : Time} {reading : Reading} (h : Took s taken s') :
    Took s taken { s' with clock := t, reading := reading } :=
  ⟨h.incoming, h.outgoing, h.sendNonce, h.recvNonce⟩

/-- What a complete `read_exact` returns is what it has taken. -/
theorem readExact_took {len : Nat} {deadline : Time} (s : Socket)
    (past : List (Label ChannelOp ChannelAns Empty)) :
    Safe (alone Socket.exec) (fun _ _ _ => True) (readExact len deadline)
      (fun a _ s' => ∃ taken, Took s taken s' ∧ ∀ bytes, a = .complete bytes → taken = bytes.val) past s := by
  refine .iterate (fun received _ s' => Took s received.val s') (fun _ => alone_stable _)
    (fun _ => alone_stable _) (Took.refl s) ?_
  intro received past s' hTook
  by_cases hFull : received.val.length = len
  · rw [dif_pos hFull]
    refine .ret (alone_stable _) ⟨received.val, hTook, ?_⟩
    rintro _ ⟨⟩
    rfl
  rw [dif_neg hFull]
  refine Safe.op (fun _ s'' => Took s received.val s'') (alone_stable _) hTook (fun _ _ _ => trivial) ?_
  rintro past s₁ now _ hTook₁ ⟨-, rfl⟩
  have hNow : Took s received.val { s₁ with clock := now, reading := s₁.reading.begin now } := hTook₁.clock
  rw [Prog.ret_bind]
  split
  · exact .ret (alone_stable _) ⟨received.val, hNow, by simp⟩
  refine Safe.op (fun _ s'' => Took s received.val s'') (alone_stable _) hNow (fun _ _ _ => trivial) ?_
  rintro past s₂ answer s₃ hTook₂ hExec
  cases answer with
  | data bytes =>
      obtain ⟨rest, hRest, rfl⟩ := hExec
      exact .ret (alone_stable _) (hTook₂.trans ⟨hRest, rfl, rfl, rfl⟩)
  | closed =>
      obtain rfl := hExec
      exact .ret (alone_stable _) ⟨received.val, hTook₂, by simp⟩
  | failed =>
      obtain ⟨t, -, rfl⟩ := hExec
      exact .ret (alone_stable _) hTook₂.clock

/-- A frame was read, and it decrypts under the next nonce. -/
structure TookFrame (na : Sodium UInt8) (key : Key32 UInt8) (s : Socket) (ciphertext plaintext : List UInt8)
    (s' : Socket) : Prop where
  incoming : ∃ header, s.incoming = be32 header ++ ciphertext ++ s'.incoming
  outgoing : s'.outgoing = s.outgoing
  sendNonce : s'.sendNonce = s.sendNonce
  recvNonce : s'.recvNonce = s.recvNonce + 1
  opens : aeadDecrypt na key s.recvNonce [] ciphertext = some plaintext

/-- How a `receive` ends. -/
inductive Got (na : Sodium UInt8) (key : Key32 UInt8) (s : Socket) : RecvResult → Socket → Prop where
  | nothing {taken : List UInt8} {r : RecvResult} {s' : Socket} (hTook : Took s taken s')
      (hNone : ∀ msgType payload, r ≠ .ok msgType payload) : Got na key s r s'
  | empty {ciphertext : List UInt8} {s' : Socket} (hFrame : TookFrame na key s ciphertext [] s') :
      Got na key s .error s'
  | message {ciphertext payload : List UInt8} {msgType : UInt8} {s' : Socket}
      (hFrame : TookFrame na key s ciphertext (msgType :: payload) s') : Got na key s (.ok msgType payload) s'

/-- Opening a frame gives its message under the next nonce, or nothing that
could be taken for one. -/
theorem openFrame_got {na : Sodium UInt8} {key : Key32 UInt8} {s₀ s : Socket} {header : UInt32}
    {ciphertext : List UInt8} (hTook : Took s₀ (be32 header ++ ciphertext) s)
    (past : List (Label ChannelOp ChannelAns Empty)) :
    Safe (alone Socket.exec) (fun _ _ _ => True) (openFrame na key ciphertext) (fun r _ => Got na key s₀ r) past s := by
  refine Safe.op (fun _ => Took s₀ (be32 header ++ ciphertext)) (alone_stable _) hTook (fun _ _ _ => trivial) ?_
  rintro past s₁ nonce _ hTook₁ ⟨rfl, rfl⟩
  rw [Prog.ret_bind, hTook₁.recvNonce]
  split
  case h_1 => exact .ret (alone_stable _) (.nothing hTook₁ (by simp))
  case h_2 plaintext hOpens =>
    refine Safe.op (fun _ => Took s₀ (be32 header ++ ciphertext)) (alone_stable _) hTook₁ (fun _ _ _ => trivial) ?_
    rintro past s₂ _ _ hTook₂ rfl
    have hFrame : TookFrame na key s₀ ciphertext plaintext { s₂ with recvNonce := s₀.recvNonce + 1 } :=
      ⟨⟨header, hTook₂.incoming⟩, hTook₂.outgoing, hTook₂.sendNonce, rfl, hOpens⟩
    cases plaintext with
    | nil => exact .ret (alone_stable _) (.empty hFrame)
    | cons msgType payload => exact .ret (alone_stable _) (.message hFrame)

/-- A `receive` takes nothing but the frame under the next nonce, whatever the
network does. -/
theorem receive_got {na : Sodium UInt8} {key : Key32 UInt8} {deadline : Time} (s : Socket)
    (past : List (Label ChannelOp ChannelAns Empty)) :
    Safe (alone Socket.exec) (fun _ _ _ => True) (receive na key deadline) (fun r _ => Got na key s r) past s := by
  refine Safe.op (fun _ => Took s []) (alone_stable _) (Took.refl s) (fun _ _ _ => trivial) ?_
  rintro past s₁ now _ hTook₁ ⟨-, rfl⟩
  refine Safe.op (fun _ => Took s []) (alone_stable _) hTook₁.clock (fun _ _ _ => trivial) ?_
  rintro past s₂ readable _ hTook₂ ⟨t, -, rfl⟩
  cases readable with
  | false => exact .ret (alone_stable _) (.nothing hTook₂.clock (by simp))
  | true =>
      refine Safe.op (fun _ => Took s []) (alone_stable _) hTook₂.clock (fun _ _ _ => trivial) ?_
      rintro past s₃ start _ hTook₃ ⟨-, rfl⟩
      rw [Prog.ret_bind]
      refine Safe.bind ((readExact_took _ _).mono ?_)
      rintro a past s₄ ⟨taken, hTaken, hBytes⟩
      have hHeader := hTook₃.clock.trans hTaken
      cases a with
      | closed => exact .ret (alone_stable _) (.nothing hHeader (by simp))
      | stalled => exact .ret (alone_stable _) (.nothing hHeader (by simp))
      | complete lenBuf =>
          obtain rfl := hBytes lenBuf rfl
          show Safe _ _ (receiveBody na key (start + kFrameTimeout) (frameLen lenBuf)) _ _ _
          unfold receiveBody
          split
          · exact .ret (alone_stable _) (.nothing hHeader (by simp))
          refine Safe.bind ((readExact_took _ _).mono ?_)
          rintro a past s₅ ⟨more, hMore, hBody⟩
          have hFrame := hHeader.trans hMore
          cases a with
          | closed => exact .ret (alone_stable _) (.nothing hFrame (by simp))
          | stalled => exact .ret (alone_stable _) (.nothing hFrame (by simp))
          | complete ciphertext =>
              obtain rfl := hBody ciphertext rfl
              rw [List.nil_append, ← be32_frameLen] at hFrame
              exact openFrame_got hFrame past

/-- A send has put bytes on the wire and has changed nothing else
but the clock. -/
structure Put (s : Socket) (sent : List UInt8) (s' : Socket) : Prop where
  outgoing : s'.outgoing = s.outgoing ++ sent
  incoming : s'.incoming = s.incoming
  sendNonce : s'.sendNonce = s.sendNonce
  recvNonce : s'.recvNonce = s.recvNonce

theorem Put.refl (s : Socket) : Put s [] s := ⟨(List.append_nil _).symm, rfl, rfl, rfl⟩

/-- What two sends have put on the wire, both together have put there
in this order. -/
theorem Put.trans {s s' s'' : Socket} {first second : List UInt8} (h : Put s first s') (h' : Put s' second s'') :
    Put s (first ++ second) s'' where
  outgoing := by rw [h'.outgoing, h.outgoing, List.append_assoc]
  incoming := h'.incoming.trans h.incoming
  sendNonce := h'.sendNonce.trans h.sendNonce
  recvNonce := h'.recvNonce.trans h.recvNonce

/-- A `send_all` puts a start of its data on the wire, and all of it where it
succeeds. -/
theorem sendAll_put (data : List UInt8) (s : Socket) (past : List (Label ChannelOp ChannelAns Empty)) :
    Safe (alone Socket.exec) (fun _ _ _ => True) (sendAll data)
      (fun b _ s' => ∃ sent, Put s sent s' ∧ sent <+: data ∧ (b = true → sent = data)) past s := by
  refine .iterate (fun rest _ s' => ∃ sent, Put s sent s' ∧ data = sent ++ rest) (fun _ => alone_stable _)
    (fun _ => alone_stable _) ⟨[], Put.refl s, rfl⟩ ?_
  rintro rest past s' ⟨sent, hPut, rfl⟩
  by_cases hNil : rest = []
  · rw [if_pos hNil]
    subst hNil
    rw [List.append_nil]
    exact .ret (alone_stable _) ⟨sent, hPut, List.prefix_refl _, fun _ => rfl⟩
  rw [if_neg hNil]
  refine Safe.op (fun _ => Put s sent) (alone_stable _) hPut (fun _ _ _ => trivial) ?_
  rintro past s₁ n s₂ hPut₁ hExec
  rw [Prog.ret_bind]
  rcases hExec with ⟨hNot, rfl⟩ | ⟨hPos, hFits, hCount, rfl⟩
  · rw [if_pos hNot]
    exact .ret (alone_stable _) ⟨sent, hPut₁, List.prefix_append _ _, by simp⟩
  · rw [if_neg (Int32.not_le.mpr hPos)]
    refine .ret (alone_stable _) ⟨sent ++ rest.take n.toInt.toNat, hPut₁.trans ⟨rfl, rfl, rfl, rfl⟩, ?_⟩
    rw [List.append_assoc, List.take_append_drop]

/-- A `send` counts its frame and puts a start of it on the wire, also where
it fails. -/
theorem send_put {na : Sodium UInt8} {key : Key32 UInt8} {msgType : UInt8} {payload : List UInt8} (s : Socket)
    (past : List (Label ChannelOp ChannelAns Empty)) :
    Safe (alone Socket.exec) (fun _ _ _ => True) (send na key msgType payload)
      (fun _ _ s' => ∃ sent, Put { s with sendNonce := s.sendNonce + 1 } sent s' ∧
        sent <+: frame na key s.sendNonce msgType payload) past s := by
  refine Safe.op (fun _ s' => s' = s) (alone_stable _) rfl (fun _ _ _ => trivial) ?_
  rintro past _ nonce s₁ rfl ⟨rfl, rfl⟩
  refine Safe.op (fun _ s' => s' = s₁) (alone_stable _) rfl (fun _ _ _ => trivial) ?_
  rintro past _ _ _ rfl rfl
  simp only [Prog.ret_bind]
  refine Safe.bind ((sendAll_put _ _ _).mono ?_)
  rintro b past s₂ ⟨header, hHeader, hStart, hAll⟩
  cases b with
  | false => exact .ret (alone_stable _) ⟨header, hHeader, hStart.trans (List.prefix_append _ _)⟩
  | true =>
      obtain rfl := hAll rfl
      refine (sendAll_put _ _ _).mono ?_
      rintro b past s₃ ⟨body, hBody, hBodyStart, -⟩
      exact ⟨_, hHeader.trans hBody, (List.prefix_append_right_inj _).mpr hBodyStart⟩

end SecureChannel

/-- A packet that decodes carries its number, and a record that opens under
that number. -/
theorem decodeFrame_some {na : Sodium UInt8} {key : Key32 UInt8} {packet data : List UInt8} {seq : UInt32}
    (h : decodeFrame na key packet = some (seq, data)) :
    ∃ record, packet = be32 seq ++ record ∧ aeadDecrypt na key seq.toUInt64 [] record = some data := by
  unfold decodeFrame at h
  split at h
  case h_1 a b c d record =>
    obtain ⟨data', hOpens, hEq⟩ := Option.map_eq_some_iff.mp h
    cases hEq
    refine ⟨record, ?_, hOpens⟩
    rw [be32_readBe32]
    rfl
  case h_2 => cases h

section

variable {na : Sodium UInt8} {keys audioKeys : TransportKeys UInt8} {s s' : Socket} {rs : Records UInt8}

/-- One more record moves the counter by one. -/
theorem ofNat_length_append {α : Type} (xs : List α) (x : α) :
    UInt64.ofNat (xs ++ [x]).length = UInt64.ofNat xs.length + 1 := by
  rw [List.length_append, List.length_singleton, UInt64.ofNat_add]
  rfl

/-- One call of a channel is at most one record. -/
theorem Called.stands {call : ChannelCall} {sent taken : List UInt8}
    (h : Called na keys audioKeys s call sent taken s') (hCounted : rs.Counted s) :
    ∃ rs', rs.After call rs' ∧ rs'.Counted s' ∧ Stands na keys audioKeys rs sent taken rs' := by
  cases h with
  | send run hSent hTaken =>
      obtain ⟨piece, hPut, hStart⟩ := (send_put s []).result run
      obtain rfl := List.append_cancel_left (hSent.symm.trans hPut.outgoing)
      obtain rfl := List.self_eq_append_left.mp (hPut.incoming.trans hTaken)
      rw [hCounted.sendNonce] at hStart
      refine ⟨_, .send _ _, ⟨?_, ?_⟩, .sends (.sendFrame rs _) _ hStart⟩
      · rw [hPut.sendNonce, Records.send, ofNat_length_append, ← hCounted.sendNonce]
      · rw [hPut.recvNonce]
        exact hCounted.recvNonce
  | receive run hSent hTaken =>
      have hAccepts : ∀ {ciphertext plaintext}, TookFrame na keys.recvKey s ciphertext plaintext s' →
          (rs.accept plaintext).Counted s' ∧ Stands na keys audioKeys rs sent taken (rs.accept plaintext) := by
        intro ciphertext plaintext hFrame
        obtain ⟨header, hIncoming⟩ := hFrame.incoming
        obtain rfl := List.append_cancel_right (hTaken.symm.trans hIncoming)
        obtain rfl := List.self_eq_append_right.mp (hFrame.outgoing.symm.trans hSent)
        have hOpens := hFrame.opens
        rw [hCounted.recvNonce] at hOpens
        refine ⟨⟨?_, ?_⟩, .takes (.acceptFrame hOpens) header⟩
        · rw [hFrame.sendNonce]
          exact hCounted.sendNonce
        · rw [hFrame.recvNonce, Records.accept, ofNat_length_append, ← hCounted.recvNonce]
      cases (receive_got s []).result run with
      | nothing hTook hNone =>
          obtain rfl := List.self_eq_append_right.mp (hTook.outgoing.symm.trans hSent)
          refine ⟨rs, .nothing hNone, ⟨?_, ?_⟩, .nothing taken⟩
          · rw [hTook.sendNonce]
            exact hCounted.sendNonce
          · rw [hTook.recvNonce]
            exact hCounted.recvNonce
      | empty hFrame => exact ⟨_, .empty, hAccepts hFrame⟩
      | message hFrame => exact ⟨_, .receive _ _, hAccepts hFrame⟩
  | @sendTo channel hKey data =>
      refine ⟨_, .sendTo _ data, ⟨hCounted.sendNonce, hCounted.recvNonce⟩,
        .sends (.sendPacket rs channel.sendSeq data) channel.sendSeq ?_⟩
      rw [← hKey]
      exact List.prefix_refl _
  | receiveNonblocking =>
      cases hDecode : decodeFrame na audioKeys.recvKey taken with
      | none => exact ⟨rs, .lost, hCounted, .nothing taken⟩
      | some p =>
          obtain ⟨seq, data⟩ := p
          obtain ⟨record, rfl, hOpens⟩ := decodeFrame_some hDecode
          exact ⟨_, .hear seq data, ⟨hCounted.sendNonce, hCounted.recvNonce⟩, .takes (.hearPacket hOpens) seq⟩

end

/-- A call, with the bytes that it has put on the network and those that it
has taken. -/
structure Observed where
  call : ChannelCall
  sent : List UInt8
  taken : List UInt8

/-- Calls on the two channels, one after the other. -/
inductive Calls (na : Sodium UInt8) (keys audioKeys : TransportKeys UInt8) : Socket → List Observed → Socket → Prop where
  | nil (s : Socket) : Calls na keys audioKeys s [] s
  | cons {s s' s'' : Socket} {o : Observed} {os : List Observed}
      (first : Called na keys audioKeys s o.call o.sent o.taken s') (rest : Calls na keys audioKeys s' os s'') :
      Calls na keys audioKeys s (o :: os) s''

/-- Records that stand for calls, one after the other. -/
inductive Recorded (na : Sodium UInt8) (keys audioKeys : TransportKeys UInt8) :
    Records UInt8 → List Observed → Records UInt8 → Prop where
  | nil (rs : Records UInt8) : Recorded na keys audioKeys rs [] rs
  | cons {rs rs' rs'' : Records UInt8} {o : Observed} {os : List Observed} (after : rs.After o.call rs')
      (stands : Stands na keys audioKeys rs o.sent o.taken rs') (rest : Recorded na keys audioKeys rs' os rs'') :
      Recorded na keys audioKeys rs (o :: os) rs''

/-- The calls of a session, one after the other, are steps of its record
layer, as long as the counters of the socket are those of the records. -/
theorem Calls.recorded {na : Sodium UInt8} {keys audioKeys : TransportKeys UInt8} {s s' : Socket}
    {os : List Observed} (h : Calls na keys audioKeys s os s') {rs : Records UInt8} (hCounted : rs.Counted s) :
    ∃ rs', Recorded na keys audioKeys rs os rs' ∧ rs'.Counted s' := by
  induction h generalizing rs with
  | nil s => exact ⟨rs, .nil rs, hCounted⟩
  | cons first _ ih =>
      obtain ⟨rs₁, hAfter, hCounted₁, hStands⟩ := first.stands hCounted
      obtain ⟨rs', hRecorded, hCounted'⟩ := ih hCounted₁
      exact ⟨rs', .cons hAfter hStands hRecorded, hCounted'⟩

/-- Whatever the network does, the calls on the channels of a new session are
records under its transport keys and the audio keys derived from them, in the
order of the calls. -/
theorem session_recorded {na : Sodium UInt8} {keys : TransportKeys UInt8} {s s' : Socket} {os : List Observed}
    (hSend : s.sendNonce = 0) (hRecv : s.recvNonce = 0)
    (h : Calls na keys ⟨deriveAudioKey na keys.sendKey, deriveAudioKey na keys.recvKey⟩ s os s') :
    ∃ rs, Recorded na keys ⟨deriveAudioKey na keys.sendKey, deriveAudioKey na keys.recvKey⟩ {} os rs ∧
      rs.Counted s' :=
  h.recorded ⟨hSend, hRecv⟩

end NoCapKVM.Discovery
