import NoCapKVM.Discovery.PlainSodium
import NoCapKVM.Discovery.SocketPlayback

/-! What successive `receive` calls make of the byte stream of the peer. -/
namespace NoCapKVM.Discovery.ChannelDelivery

open Codec Thread SecureChannel

/-- A frame, or bytes between two frames that a `receive` takes as a whole. -/
inductive Piece where
  | frame (msgType : UInt8) (payload : List UInt8)
  | stray (bytes : List UInt8)

/-- A length that is refused, or a length with as many bytes that do not
decrypt. -/
inductive Stray (na : Sodium UInt8) (key : Key32 UInt8) (nonce : UInt64) : List UInt8 → Prop where
  | badLength (len : UInt32) (hLen : len = 0 ∨ len > kMaxFrameLen) : Stray na key nonce (be32 len)
  | sealedElsewhere (len : UInt32) (ciphertext : List UInt8) (hLen : ¬ (len = 0 ∨ len > kMaxFrameLen))
      (hBytes : ciphertext.length = len.toNat) (hOpen : aeadDecrypt na key nonce [] ciphertext = none) :
      Stray na key nonce (be32 len ++ ciphertext)

/-- The bytes of the pieces, with the frames under consecutive nonces. -/
inductive Stream (na : Sodium UInt8) (key : Key32 UInt8) :
    UInt64 → List Piece → List UInt8 → Prop where
  | nil (nonce : UInt64) : Stream na key nonce [] []
  | frame {nonce : UInt64} {msgType : UInt8} {payload : List UInt8} {pieces : List Piece}
      {bytes : List UInt8} (hLen : payload.length + 17 ≤ kMaxFrameLen.toNat)
      (rest : Stream na key (nonce + 1) pieces bytes) :
      Stream na key nonce (.frame msgType payload :: pieces)
        (SecureChannel.frame na key nonce msgType payload ++ bytes)
  | stray {nonce : UInt64} {junk : List UInt8} {pieces : List Piece} {bytes : List UInt8}
      (hStray : Stray na key nonce junk) (rest : Stream na key nonce pieces bytes) :
      Stream na key nonce (.stray junk :: pieces) (junk ++ bytes)

/-- What `receive` returns for a piece. -/
def outcome : Piece → RecvResult
  | .frame msgType payload => .ok msgType payload
  | .stray _ => .error

variable {na : Sodium UInt8} {key : Key32 UInt8}

/-- What follows the length at the start of a piece. -/
inductive AfterLength (na : Sodium UInt8) (key : Key32 UInt8) (nonce : UInt64) (len : UInt32)
    (piece : Piece) (rest : List Piece) : List UInt8 → Prop where
  | refused {bytes : List UInt8} (hLen : len = 0 ∨ len > kMaxFrameLen) (hPiece : outcome piece = .error)
      (hRest : Stream na key nonce rest bytes) : AfterLength na key nonce len piece rest bytes
  | sealed {ciphertext bytes : List UInt8} (hLen : ¬ (len = 0 ∨ len > kMaxFrameLen))
      (hBytes : ciphertext.length = len.toNat) (hOpen : aeadDecrypt na key nonce [] ciphertext = none)
      (hPiece : outcome piece = .error) (hRest : Stream na key nonce rest bytes) :
      AfterLength na key nonce len piece rest (ciphertext ++ bytes)
  | opened {ciphertext bytes payload : List UInt8} {msgType : UInt8}
      (hLen : ¬ (len = 0 ∨ len > kMaxFrameLen)) (hBytes : ciphertext.length = len.toNat)
      (hOpen : aeadDecrypt na key nonce [] ciphertext = some (msgType :: payload))
      (hPiece : outcome piece = .ok msgType payload) (hRest : Stream na key (nonce + 1) rest bytes) :
      AfterLength na key nonce len piece rest (ciphertext ++ bytes)

/-- The first four bytes of a stream are the length of its first piece. -/
theorem Stream.length_first (hNa : na.AeadContract) {nonce : UInt64} {pieces : List Piece}
    {lenBuf : Bytes UInt8 4} {bytes : List UInt8} (h : Stream na key nonce pieces (lenBuf.val ++ bytes)) :
    ∃ piece rest, pieces = piece :: rest ∧ AfterLength na key nonce (frameLen lenBuf) piece rest bytes := by
  have hSplit : ∀ {len : UInt32} {more : List UInt8}, lenBuf.val ++ bytes = be32 len ++ more →
      frameLen lenBuf = len ∧ bytes = more := by
    intro len more hEq
    obtain ⟨hBuf, rfl⟩ := List.append_inj hEq (lenBuf.property.trans (be32_length len).symm)
    have hLenBuf : lenBuf = ⟨be32 len, be32_length len⟩ := Subtype.ext hBuf
    exact ⟨hLenBuf ▸ frameLen_be32 len _, rfl⟩
  generalize hAll : lenBuf.val ++ bytes = all at h
  cases h with
  | nil =>
      have hLen := lenBuf.property
      rw [(List.append_eq_nil_iff.mp hAll).1] at hLen
      cases hLen
  | frame hShort rest =>
      obtain ⟨len, ciphertext, hFrame, hValid, hLen, hOpen⟩ := frame_eq hNa hShort
      rw [hFrame, List.append_assoc] at hAll
      obtain ⟨rfl, rfl⟩ := hSplit hAll
      exact ⟨_, _, rfl, .opened hValid hLen hOpen rfl rest⟩
  | stray hStray rest =>
      cases hStray with
      | badLength len hBad =>
          obtain ⟨rfl, rfl⟩ := hSplit hAll
          exact ⟨_, _, rfl, .refused hBad rfl rest⟩
      | sealedElsewhere len ciphertext hValid hLen hOpen =>
          rw [List.append_assoc] at hAll
          obtain ⟨rfl, rfl⟩ := hSplit hAll
          exact ⟨_, _, rfl, .sealed hValid hLen hOpen rfl rest⟩

/-- How a `receive` may end: with nothing read, with the end of the stream, or
with the next piece. -/
def Received (na : Sodium UInt8) (key : Key32 UInt8) (pieces : List Piece) (s : Socket) (r : RecvResult)
    (past : List (Label ChannelOp ChannelAns Empty)) (s' : Socket) : Prop :=
  (r = .timeout ∧ s'.incoming = s.incoming ∧ s'.recvNonce = s.recvNonce) ∨
    (r = .closed ∧ HungUp past) ∨
    ∃ piece rest, pieces = piece :: rest ∧ r = outcome piece ∧ Stream na key s'.recvNonce rest s'.incoming

/-- The ciphertext of a piece gives its message, or the error that it
has in store. -/
theorem openFrame_safe {piece : Piece} {rest : List Piece} {len : UInt32} {ciphertext : List UInt8}
    {s₀ s : Socket} (h : AfterLength na key s.recvNonce len piece rest (ciphertext ++ s.incoming))
    (hLen : ¬ (len = 0 ∨ len > kMaxFrameLen)) (hBytes : ciphertext.length = len.toNat)
    (past : List (Label ChannelOp ChannelAns Empty)) :
    Safe (alone timely) (fun _ _ _ => True) (openFrame na key ciphertext)
      (Received na key (piece :: rest) s₀) past s := by
  refine Safe.op (fun _ s' => s' = s) (alone_stable _) rfl (fun _ _ _ => trivial) ?_
  rintro past s _ s rfl ⟨⟨rfl, rfl⟩, -⟩
  rw [Prog.ret_bind]
  generalize hAll : ciphertext ++ s.incoming = all at h
  cases h with
  | refused hBad => exact absurd hBad hLen
  | sealed _ hBytes' hOpen hPiece hRest =>
      obtain ⟨rfl, rfl⟩ := List.append_inj hAll (hBytes.trans hBytes'.symm)
      rw [hOpen]
      exact .ret (alone_stable _) (Or.inr (Or.inr ⟨piece, rest, rfl, hPiece.symm, hRest⟩))
  | opened _ hBytes' hOpen hPiece hRest =>
      obtain ⟨rfl, rfl⟩ := List.append_inj hAll (hBytes.trans hBytes'.symm)
      rw [hOpen]
      refine Safe.op (fun _ s' => s' = s) (alone_stable _) rfl (fun _ _ _ => trivial) ?_
      rintro past s _ s rfl ⟨rfl, -⟩
      exact .ret (alone_stable _) (Or.inr (Or.inr ⟨piece, rest, rfl, hPiece.symm, hRest⟩))

/-- With the length of a piece, a receive takes the rest of that piece
and no more. -/
theorem receiveBody_safe {piece : Piece} {rest : List Piece} {len : UInt32} {deadline t : Time}
    {s₀ s : Socket} (h : AfterLength na key s.recvNonce len piece rest s.incoming)
    (hDeadline : t + kFrameTimeout = deadline) (hSince : s.reading = .since t)
    (past : List (Label ChannelOp ChannelAns Empty)) :
    Safe (alone timely) (fun _ _ _ => True) (receiveBody na key deadline len)
      (Received na key (piece :: rest) s₀) past s := by
  by_cases hBad : len = 0 ∨ len > kMaxFrameLen
  · rw [receiveBody, if_pos hBad]
    generalize hBytes : s.incoming = bytes at h
    cases h with
    | refused _ hPiece hRest =>
        exact .ret (alone_stable _) (Or.inr (Or.inr ⟨piece, rest, rfl, hPiece.symm, hBytes ▸ hRest⟩))
    | sealed hValid => exact absurd hBad hValid
    | opened hValid => exact absurd hBad hValid
  · rw [receiveBody, if_neg hBad]
    refine Safe.bind ((readExact_safe hDeadline hSince _).mono ?_)
    rintro a past s' (⟨rfl, hHungUp⟩ | ⟨ciphertext, rfl, hRead, -, hNonce⟩)
    · exact .ret (alone_stable _) (Or.inr (Or.inl ⟨rfl, hHungUp⟩))
    refine openFrame_safe ?_ hBad ciphertext.property _
    rw [hNonce, ← hRead]
    exact h

/-- So each receive times out without a byte, finds the stream closed, or
returns the next piece. -/
theorem receive_safe (hNa : na.AeadContract) {pieces : List Piece} {deadline : Time} {s : Socket}
    (hStream : Stream na key s.recvNonce pieces s.incoming)
    (past : List (Label ChannelOp ChannelAns Empty)) :
    Safe (alone timely) (fun _ _ _ => True) (receive na key deadline) (Received na key pieces s)
      past s := by
  refine Safe.op (fun _ s' => s' = s) (alone_stable _) rfl (fun _ _ _ => trivial) ?_
  rintro past s now s₁ rfl ⟨⟨-, rfl⟩, -⟩
  refine Safe.op (fun _ s' => s'.incoming = s.incoming ∧ s'.recvNonce = s.recvNonce) (alone_stable _)
    ⟨rfl, rfl⟩ (fun _ _ _ => trivial) ?_
  rintro past s₂ readable s₃ ⟨hIncoming, hNonce⟩ ⟨⟨t, -, rfl⟩, -⟩
  cases readable with
  | false => exact .ret (alone_stable _) (Or.inl ⟨rfl, hIncoming, hNonce⟩)
  | true =>
      refine Safe.op (fun _ s' => s'.incoming = s.incoming ∧ s'.recvNonce = s.recvNonce ∧
        s'.reading = .due) (alone_stable _) ⟨hIncoming, hNonce, rfl⟩ (fun _ _ _ => trivial) ?_
      rintro past s₄ start s₅ ⟨hIncoming₄, hNonce₄, hDue⟩ ⟨⟨-, rfl⟩, -⟩
      rw [Prog.ret_bind]
      refine Safe.bind ((readExact_safe rfl (congrArg (Reading.begin start) hDue) _).mono ?_)
      rintro a past s₆ (⟨rfl, hHungUp⟩ | ⟨lenBuf, rfl, hRead, hSince, hNonce₆⟩)
      · exact .ret (alone_stable _) (Or.inr (Or.inl ⟨rfl, hHungUp⟩))
      rw [hIncoming₄.symm.trans hRead, ← hNonce₆.trans hNonce₄] at hStream
      obtain ⟨piece, rest, rfl, hAfter⟩ := hStream.length_first hNa
      exact receiveBody_safe hAfter rfl hSince _

structure Message where
  msgType : UInt8
  payload : List UInt8

def Message.received (m : Message) : RecvResult :=
  .ok m.msgType m.payload

def Message.piece (m : Message) : Piece :=
  .frame m.msgType m.payload

def notTimeout : RecvResult → Bool
  | .timeout => false
  | _ => true

/-- Calls of `send` that all succeed, one after the other under
`send_mutex_`. -/
inductive Sends (na : Sodium UInt8) (key : Key32 UInt8) : Socket → List Message → Socket → Prop where
  | nil (s : Socket) : Sends na key s [] s
  | cons {s s' s'' : Socket} {m : Message} {ms : List Message}
      {past : List (Label ChannelOp ChannelAns Empty)}
      (first : Run (alone Socket.exec) (send na key m.msgType m.payload) s past (.ret true) s')
      (rest : Sends na key s' ms s'') : Sends na key s (m :: ms) s''

/-- The next call of `receive` finds the socket as the last one
has left it. -/
def Resumes (s s' : Socket) : Prop :=
  s'.incoming = s.incoming ∧ s'.recvNonce = s.recvNonce ∧ s'.reading = .idle

/-- Calls of `receive` with the results that they return. The rest of the
stream may arrive in any parts at any time before the frame deadlines. -/
inductive Receives (na : Sodium UInt8) (key : Key32 UInt8) :
    Socket → List RecvResult → Socket → Prop where
  | nil (s : Socket) : Receives na key s [] s
  | cons {s₀ s s' s'' : Socket} {deadline : Time} {r : RecvResult} {rs : List RecvResult}
      {past : List (Label ChannelOp ChannelAns Empty)} (resumes : Resumes s₀ s)
      (first : Run (alone timely) (receive na key deadline) s past (.ret r) s')
      (hOpen : ¬ HungUp past) (rest : Receives na key s' rs s'') : Receives na key s₀ (r :: rs) s''

/-- What a list of sends puts on the wire. -/
theorem Sends.stream {s s' : Socket} {ms : List Message} (h : Sends na key s ms s')
    (hShort : ∀ m ∈ ms, m.payload.length ≤ kMaxFrameLen.toNat - 17) :
    ∃ bytes, s'.outgoing = s.outgoing ++ bytes ∧ Stream na key s.sendNonce (ms.map Message.piece) bytes := by
  induction h with
  | nil s => exact ⟨[], (List.append_nil _).symm, .nil _⟩
  | @cons s s' s'' m ms past first _ ih =>
      obtain ⟨-, hOut, hNonce⟩ := send_true first
      obtain ⟨bytes, hBytes, hStream⟩ := ih fun m hm => hShort m (List.mem_cons_of_mem _ hm)
      have hFits : m.payload.length + 17 ≤ kMaxFrameLen.toNat := by
        have hPayload := hShort m List.mem_cons_self
        rw [kMaxFrameLen_toNat] at hPayload ⊢
        omega
      rw [hNonce] at hStream
      refine ⟨frame na key s.sendNonce m.msgType m.payload ++ bytes, ?_, .frame hFits hStream⟩
      rw [hBytes, hOut, List.append_assoc]

/-- The receives so far have taken the first pieces of the stream. -/
theorem Receives.stream (hNa : na.AeadContract) {s s' : Socket} {rs : List RecvResult}
    (h : Receives na key s rs s') {pieces : List Piece} (hStream : Stream na key s.recvNonce pieces s.incoming) :
    ∃ taken left, pieces = taken ++ left ∧ rs.filter notTimeout = taken.map outcome ∧
      Stream na key s'.recvNonce left s'.incoming := by
  induction h generalizing pieces with
  | nil s => exact ⟨[], pieces, rfl, rfl, hStream⟩
  | @cons s₀ s s' s'' deadline r rs past resumes first hOpen _ ih =>
      obtain ⟨hIncoming, hNonce, -⟩ := resumes
      rw [← hIncoming, ← hNonce] at hStream
      rcases (receive_safe hNa hStream []).result first with
        ⟨rfl, hSame, hSameNonce⟩ | ⟨-, hHungUp⟩ | ⟨piece, rest, rfl, rfl, hRest⟩
      · rw [← hSame, ← hSameNonce] at hStream
        exact ih hStream
      · exact absurd hHungUp hOpen
      · obtain ⟨taken, left, rfl, hResults, hLeft⟩ := ih hRest
        refine ⟨piece :: taken, left, rfl, ?_, hLeft⟩
        have hKept : notTimeout (outcome piece) = true := by cases piece <;> rfl
        rw [List.filter_cons_of_pos hKept, hResults, List.map_cons]

/-- A frame at the head of a stream is delivered by the next receive. -/
theorem Stream.receive_first (hNa : na.AeadContract) {m : Message} {rest : List Piece} {deadline : Time}
    {s : Socket} (hIdle : s.reading = .idle) (h : Stream na key s.recvNonce (m.piece :: rest) s.incoming) :
    Returns intact (fun r s' => r = m.received ∧ Stream na key s'.recvNonce rest s'.incoming)
      (receive na key deadline) s := by
  generalize hBytes : s.incoming = all at h
  cases h with
  | frame hShort hRest =>
      obtain ⟨ctLen, ciphertext, hFrame, hValid, hLen, hOpen⟩ := frame_eq hNa hShort
      rw [hFrame, List.append_assoc] at hBytes
      refine (receive_ok hIdle hBytes hValid hLen hOpen).mono ?_
      rintro r s' ⟨rfl, rfl, hNonce⟩
      exact ⟨rfl, hNonce ▸ hRest⟩

/-- Whatever successive sends have put on the wire, the receives of the peer
that do not time out return it in order. All that is still missing is what the
next receives return. -/
theorem delivers_in_order (hNa : na.AeadContract) {msgs : List Message} {sender sent receiver received : Socket}
    {results : List RecvResult} (hShort : ∀ m ∈ msgs, m.payload.length ≤ kMaxFrameLen.toNat - 17)
    (hSent : Sends na key sender msgs sent) (hNonce : receiver.recvNonce = sender.sendNonce)
    (hWire : sent.outgoing = sender.outgoing ++ receiver.incoming)
    (hReceived : Receives na key receiver results received) :
    ∃ got left, msgs = got ++ left ∧ results.filter notTimeout = got.map Message.received ∧
      (left = [] → received.incoming = []) ∧
      ∀ next m rest deadline, left = m :: rest → Resumes received next →
        Returns intact (fun r _ => r = m.received) (receive na key deadline) next := by
  obtain ⟨bytes, hBytes, hStream⟩ := hSent.stream hShort
  obtain rfl := List.append_cancel_left (hWire.symm.trans hBytes)
  rw [← hNonce] at hStream
  obtain ⟨taken, rest, hPieces, hResults, hLeft⟩ := hReceived.stream hNa hStream
  obtain ⟨got, left, rfl, rfl, rfl⟩ := List.map_eq_append_iff.mp hPieces
  refine ⟨got, left, rfl, ?_, ?_, ?_⟩
  · rw [hResults, List.map_map]
    rfl
  · rintro rfl
    generalize received.incoming = bytes at hLeft
    cases hLeft with
    | nil => rfl
  · rintro next m rest deadline rfl ⟨hIncoming, hSame, hIdle⟩
    rw [← hIncoming, ← hSame] at hLeft
    exact (hLeft.receive_first hNa hIdle).mono fun _ _ h => h.1

section Instance

def sessionKey : Key32 UInt8 := Bytes.fill 32 7

/-- The bytes of messages under consecutive nonces. -/
def wireBytes (na : Sodium UInt8) (key : Key32 UInt8) : UInt64 → List Message → List UInt8
  | _, [] => []
  | nonce, m :: msgs => SecureChannel.frame na key nonce m.msgType m.payload ++ wireBytes na key (nonce + 1) msgs

/-- A connection that takes everything. Its sends all succeed, and they put
the frames of the messages on the wire. -/
theorem exists_sends (hNa : na.AeadContract) (key : Key32 UInt8) {msgs : List Message}
    (hShort : ∀ m ∈ msgs, m.payload.length ≤ kMaxFrameLen.toNat - 17) (s : Socket) :
    ∃ sent, Sends na key s msgs sent ∧ sent.outgoing = s.outgoing ++ wireBytes na key s.sendNonce msgs := by
  induction msgs generalizing s with
  | nil => exact ⟨s, .nil s, (List.append_nil _).symm⟩
  | cons m msgs ih =>
      have hFits : (aeadEncrypt na key s.sendNonce [] (m.msgType :: m.payload)).length < 2 ^ 32 := by
        have hPayload := hShort m List.mem_cons_self
        rw [ciphertext_length hNa]
        rw [kMaxFrameLen_toNat] at hPayload
        omega
      obtain ⟨past, _, s', hRun, rfl⟩ := (send_returns hFits).exists_run fun _ _ _ _ hExec => hExec.1
      obtain ⟨-, hOut, hNonce⟩ := send_true hRun
      obtain ⟨sent, hSends, hRest⟩ := ih (fun m hMem => hShort m (List.mem_cons_of_mem _ hMem)) s'
      refine ⟨sent, .cons hRun hSends, ?_⟩
      rw [hRest, hOut, hNonce, List.append_assoc]
      rfl

/-- How many bytes each `recv` has returned, in order, as long as the stream
has not ended. -/
def readCounts : List (Label ChannelOp ChannelAns Empty) → Option (List Nat)
  | [] => some []
  | .did (.recv _) (.data bytes) :: earlier => (readCounts earlier).map (· ++ [bytes.val.length])
  | .did (.recv _) .closed :: _ => none
  | _ :: earlier => readCounts earlier

/-- Where all reads have returned bytes, the end of the stream
was not read. -/
theorem open_of_readCounts {past : List (Label ChannelOp ChannelAns Empty)} {counts : List Nat}
    (h : readCounts past = some counts) : ¬ HungUp past := by
  rintro ⟨len, hMem⟩
  induction past generalizing counts with
  | nil => cases hMem
  | cons l earlier ih =>
      cases hMem with
      | head => cases h
      | tail _ hMem =>
          unfold readCounts at h
          split at h
          next hPast => cases hPast
          next hPast =>
            obtain ⟨_, hEarlier, -⟩ := Option.map_eq_some_iff.mp h
            obtain ⟨-, rfl⟩ := List.cons.inj hPast
            exact ih hEarlier hMem
          next => cases h
          next hPast =>
            obtain ⟨-, rfl⟩ := List.cons.inj hPast
            exact ih h hMem

/-- Successive receives along cues, each with what it returns and with the
parts in which it has read. -/
def playReceives (na : Sodium UInt8) (key : Key32 UInt8) :
    Socket → List (List (Cue Empty SocketChoice)) → Option (List (RecvResult × List Nat) × Socket)
  | s, [] => some ([], s)
  | s, cues :: more =>
      match timelyPlayer.play cues ⟨[], receive na key 0, { s with reading := .idle }⟩ with
      | some ⟨past, .ret r, s'⟩ => do
          let counts ← readCounts past
          let (rest, s'') ← playReceives na key s' more
          return ((r, counts) :: rest, s'')
      | _ => none

/-- A play of receives is a sequence of calls with these results. -/
theorem receives_of_play {s s' : Socket} {plays : List (List (Cue Empty SocketChoice))}
    {results : List (RecvResult × List Nat)} (h : playReceives na key s plays = some (results, s')) :
    Receives na key s (results.map Prod.fst) s' := by
  induction plays generalizing s results with
  | nil =>
      cases h
      exact .nil _
  | @cons cues more ih =>
      unfold playReceives at h
      split at h
      · rename_i past r s₁ hPlay
        obtain ⟨counts, hCounts, hRest⟩ := Option.bind_eq_some_iff.mp h
        obtain ⟨⟨rest, s₂⟩, hRest, hSame⟩ := Option.bind_eq_some_iff.mp hRest
        cases hSame
        exact .cons (s := { s with reading := .idle }) ⟨rfl, rfl, rfl⟩ (Player.play_run hPlay .start)
          (open_of_readCounts hCounts) (ih hRest)
      · cases h

/-- A ping and the text of a clipboard. -/
def pingAndText : List Message :=
  [⟨kMsgPing, [0, 0, 0, 1]⟩, ⟨kMsgClipboardText, [72, 105]⟩]

/-- The ping is cut in its length and in its ciphertext, then a receive times
out, and the text comes in one piece. -/
theorem delivers_in_order_cut : ∃ sender sent received got left,
    pingAndText = got ++ left ∧
    [.ok kMsgPing [0, 0, 0, 1], .timeout, .ok kMsgClipboardText [72, 105]].filter notTimeout =
      got.map Message.received ∧
    (left = [] → received.incoming = []) ∧
    (∀ next m rest deadline, left = m :: rest → Resumes received next →
      Returns intact (fun r _ => r = m.received) (receive plainSodium sessionKey deadline) next) ∧
    Sends plainSodium sessionKey sender pingAndText sent ∧
    playReceives plainSodium sessionKey { incoming := sent.outgoing }
        [readCut 3 10, readNothing (seconds 5), readWhole] =
      some ([(.ok kMsgPing [0, 0, 0, 1], [3, 1, 10, 11]), (.timeout, []),
        (.ok kMsgClipboardText [72, 105], [4, 19])], received) := by
  have hNa := plainSodium_contract.toAeadContract
  have hShort : ∀ m ∈ pingAndText, m.payload.length ≤ kMaxFrameLen.toNat - 17 := by decide +kernel
  obtain ⟨sent, hSent, hWire⟩ := exists_sends hNa sessionKey hShort {}
  have hPlayed : ((playReceives plainSodium sessionKey
      { incoming := wireBytes plainSodium sessionKey 0 pingAndText }
      [readCut 3 10, readNothing (seconds 5), readWhole]).map Prod.fst) =
      some [(.ok kMsgPing [0, 0, 0, 1], [3, 1, 10, 11]), (.timeout, []),
        (.ok kMsgClipboardText [72, 105], [4, 19])] := by decide +kernel
  obtain ⟨⟨_, received⟩, hPlayed, rfl⟩ := Option.map_eq_some_iff.mp hPlayed
  obtain ⟨got, left, hGot, hResults, hNil, hNext⟩ :=
    delivers_in_order hNa hShort hSent rfl hWire (receives_of_play hPlayed)
  rw [← List.nil_append (wireBytes ..), ← hWire] at hPlayed
  exact ⟨_, sent, received, got, left, hGot, hResults, hNil, hNext, hSent, hPlayed⟩

end Instance

end NoCapKVM.Discovery.ChannelDelivery
