import NoCapKVM.Discovery.NoiseIk
import NoCapKVM.Discovery.TermSodium

/-! Both sides of the Noise IK handshake agree exactly when the initiator knows
the responder's static key. -/
namespace NoCapKVM.Discovery

open Thread

variable {Byte : Type} {na : Sodium Byte}

theorem dh_genuine (hNa : na.Contract) {a b : Keypair Byte} (hA : a.Genuine na) (hB : b.Genuine na) :
    dh na a.privateKey b.publicKey = dh na b.privateKey a.publicKey := by
  unfold dh
  rw [hA, hB]
  exact hNa.dh_comm _ _

theorem mixHash_injective (hNa : na.Symbolic) {s t : SymmetricState Byte} {data data' : List Byte}
    (h : (mixHash na s data).h = (mixHash na t data').h) : s.h = t.h ∧ data = data' := by
  have hAppend : s.h.val ++ data = t.h.val ++ data' :=
    hNa.sha256_injective h
  have hLen : s.h.val.length = t.h.val.length := by rw [s.h.property, t.h.property]
  rcases List.append_inj hAppend hLen with ⟨hH, hD⟩
  exact ⟨Subtype.ext hH, hD⟩

/-- What was encrypted under another transcript does not decrypt. -/
theorem decryptAndHash_other (hNa : na.Symbolic) {s s' t : SymmetricState Byte}
    (hS : s.hasKey = true) (hT : t.hasKey = true) {plaintext ct : List Byte}
    (hCt : encryptAndHash na s plaintext = (ct, s')) (h : s.h ≠ t.h) :
    decryptAndHash na t ct = none := by
  simp only [encryptAndHash, hS, if_true, Prod.mk.injEq] at hCt
  obtain ⟨rfl, -⟩ := hCt
  have hNone : aeadDecrypt na t.k t.n t.h.val (aeadEncrypt na s.k s.n s.h.val plaintext) = none := by
    by_contra hSome
    obtain ⟨out, hOut⟩ := Option.ne_none_iff_exists'.mp hSome
    exact h (Subtype.ext (hNa.decrypt_exact hOut).1)
  simp [decryptAndHash, hT, hNone]

section Messages

variable {si sr ei er : Keypair Byte} {peerStatic : Key32 Byte}

/-- The pieces of a first message, as the responder cuts them out. -/
theorem ikMsg1_slices {e : Keypair Byte} {ctS ctPayload : List Byte}
    (hS : ctS.length = 48) (hPayload : ctPayload.length = 16)
    (hLen : (e.publicKey.val ++ ctS ++ ctPayload).length = kMsg1Size) :
    let msg1 : Bytes Byte kMsg1Size := ⟨e.publicKey.val ++ ctS ++ ctPayload, hLen⟩
    msg1.slice 0 32 (by decide) = e.publicKey ∧ msg1.slice 32 48 (by decide) = ⟨ctS, hS⟩ ∧
      msg1.slice 80 16 (by decide) = ⟨ctPayload, hPayload⟩ := by
  refine ⟨?_, ?_, ?_⟩
  · exact Bytes.slice_eq [] (ctS ++ ctPayload) _ rfl e.publicKey.property (by simp)
  · exact Bytes.slice_eq e.publicKey.val ctPayload _ e.publicKey.property hS rfl
  · refine Bytes.slice_eq (e.publicKey.val ++ ctS) [] _ ?_ hPayload (by simp)
    rw [List.length_append, e.publicKey.property, hS]

theorem ikMsg2_slices {e : Keypair Byte} {ct2 : List Byte} (hCt : ct2.length = 16)
    (hLen : (e.publicKey.val ++ ct2).length = kMsg2Size) :
    let msg2 : Bytes Byte kMsg2Size := ⟨e.publicKey.val ++ ct2, hLen⟩
    msg2.slice 0 32 (by decide) = e.publicKey ∧ msg2.slice 32 16 (by decide) = ⟨ct2, hCt⟩ := by
  constructor
  · exact Bytes.slice_eq [] ct2 _ rfl e.publicKey.property rfl
  · exact Bytes.slice_eq e.publicKey.val [] _ e.publicKey.property hCt (by simp)

theorem ikReadMsg1_ikWriteMsg1 (hNa : na.Contract) (hSi : si.Genuine na) (hSr : sr.Genuine na)
    (hEi : ei.Genuine na) {msg1 : List Byte} {state : SymmetricState Byte}
    (h : ikWriteMsg1 na si sr.publicKey ei = some (msg1, state)) (hLen : msg1.length = kMsg1Size) :
    ikReadMsg1 na sr ⟨msg1, hLen⟩ = some ⟨ei.publicKey, si.publicKey, state⟩ := by
  obtain ⟨es, ss, ctS, ctPayload, state₁, hEs, hSs, hFirst, hSecond, rfl, hS, hPayload⟩ :=
    ikWriteMsg1_some hNa.toAeadContract h
  rw [← dh_genuine hNa hSr hEi] at hEs
  rw [← dh_genuine hNa hSr hSi] at hSs
  rcases ikMsg1_slices hS hPayload hLen with ⟨hE, hCtS, hCtPayload⟩
  simp only [ikReadMsg1, hE, hCtS, hCtPayload, hEs, hSs, Option.bind_eq_bind, Option.bind_some,
    decryptAndHash_encryptAndHash hNa.toAeadContract hFirst, si.publicKey.property, dite_true,
    decryptAndHash_encryptAndHash hNa.toAeadContract hSecond, Subtype.coe_eta, Option.pure_def]

/-- A first message made for another responder is refused. -/
theorem ikReadMsg1_other (hNa : na.Symbolic) {msg1 : List Byte} {state : SymmetricState Byte}
    (h : ikWriteMsg1 na si peerStatic ei = some (msg1, state)) (hLen : msg1.length = kMsg1Size)
    (hOther : peerStatic ≠ sr.publicKey) : ikReadMsg1 na sr ⟨msg1, hLen⟩ = none := by
  obtain ⟨es, ss, ctS, ctPayload, state₁, -, -, hFirst, -, rfl, hS, hPayload⟩ :=
    ikWriteMsg1_some hNa.toAeadContract h
  rcases ikMsg1_slices hS hPayload hLen with ⟨hE, hCtS, -⟩
  simp only [ikReadMsg1, hE, hCtS]
  cases dh na sr.privateKey ei.publicKey with
  | none => rfl
  | some es' =>
      -- The two transcripts differ from the pre-message on.
      have hH : (mixKey na (mixHash na (ikStart na peerStatic) ei.publicKey.val) es).h ≠
          (mixKey na (mixHash na (ikStart na sr.publicKey) ei.publicKey.val) es').h := by
        intro hEq
        have hStart := (mixHash_injective hNa hEq).1
        exact hOther (Subtype.ext (mixHash_injective hNa hStart).2)
      have hNone := decryptAndHash_other hNa (mixKey_hasKey na _ es) (mixKey_hasKey na _ es')
        hFirst hH
      simp only [Option.bind_eq_bind, Option.bind_some, hNone, Option.bind_none]

theorem ikReadMsg2_ikWriteMsg2 (hNa : na.Contract) (hSi : si.Genuine na)
    (hEi : ei.Genuine na) (hEr : er.Genuine na) {msg2 : List Byte} {state : SymmetricState Byte}
    {result : IkResult Byte}
    (h : ikWriteMsg2 na ⟨ei.publicKey, si.publicKey, state⟩ er = some (msg2, result))
    (hLen : msg2.length = kMsg2Size) :
    ikReadMsg2 na si peerStatic ei state ⟨msg2, hLen⟩ =
      some ⟨⟨result.keys.recvKey, result.keys.sendKey⟩, peerStatic⟩ := by
  obtain ⟨ee, se, ct2, state₂, hEe, hSe, hCt, rfl, hCtLen, rfl⟩ :=
    ikWriteMsg2_some hNa.toAeadContract h
  rw [← dh_genuine hNa hEi hEr] at hEe
  rw [← dh_genuine hNa hSi hEr] at hSe
  rcases ikMsg2_slices hCtLen hLen with ⟨hE, hTag⟩
  simp only [ikReadMsg2, hE, hTag, hEe, hSe, Option.bind_eq_bind, Option.bind_some,
    decryptAndHash_encryptAndHash hNa.toAeadContract hCt, Option.pure_def]

end Messages

/-- The operations on a socket that delivers everything. The local state is
the ephemeral keypair that the side draws. -/
def ikHandler : Handler (IkOp Byte) IkAns (Keypair Byte) Byte where
  act
    | .generateKeypair, e, _ => some { answer := e, loc := e }
    | .sendAll data, e, _ => some { answer := true, loc := e, sent := data }
    | .recvAll len, e, i => (i.read len).map fun r => { answer := r.1, loc := e, taken := r.2 }
  taken_le := by
    intro o l i r h
    cases o with
    | generateKeypair => cases h; exact Nat.zero_le _
    | sendAll data => cases h; exact Nat.zero_le _
    | recvAll len =>
        obtain ⟨r', hRead, rfl⟩ := Option.map_eq_some_iff.mp h
        exact Inbox.read_taken hRead
  mono := by
    intro o l i r h sent closes
    cases o with
    | generateKeypair => exact h
    | sendAll data => exact h
    | recvAll len =>
        obtain ⟨r', hRead, rfl⟩ := Option.map_eq_some_iff.mp h
        simp only [Inbox.read_deliver hRead, Option.map_some]

abbrev IkPair (Byte : Type) :=
  Pair (IkOp Byte) IkAns (IkOp Byte) IkAns (Keypair Byte) (Keypair Byte) Byte
    (Option (IkResult Byte)) (Option (IkResult Byte))

def ikPair (na : Sodium Byte) (si : Keypair Byte) (peerStatic : Key32 Byte) (ei sr er : Keypair Byte) :
    IkPair Byte where
  left := { prog := runIkInitiator na si peerStatic, loc := ei }
  right := { prog := runIkResponder na sr, loc := er }

/-- What remains of a side whose deadline passes while it waits for input. -/
def expire {α : Type} : IkProg Byte α → IkProg Byte α
  | .op (.recvAll _) next => next none
  | p => p

section Handshake

variable {si sr ei er : Keypair Byte} {peerStatic : Key32 Byte}

/-- Reading a message that has arrived completely. -/
theorem reaches_recv {α : Type} {len : Nat} {msg : List Byte} (hLen : msg.length = len)
    {next : Option (Bytes Byte len) → IkProg Byte α} {e : Keypair Byte}
    {trace : List (Σ o : IkOp Byte, IkAns o)} :
    Party.Reaches ikHandler ⟨.op (.recvAll len) next, e, ⟨msg, false⟩, trace⟩ []
      ⟨next (some ⟨msg, hLen⟩), e, {}, trace ++ [⟨.recvAll len, some ⟨msg, hLen⟩⟩]⟩ := by
  have hRead : Inbox.read ⟨msg, false⟩ len = some (some ⟨msg, hLen⟩, len) :=
    Inbox.read_append (List.append_nil msg).symm hLen
  have hDrop : Inbox.drop ⟨msg, false⟩ len = {} := by rw [Inbox.drop, ← hLen, List.drop_length]
  refine .op (r := { answer := some ⟨msg, hLen⟩, loc := e, taken := len }) ?_ rfl rfl ?_
  · exact congrArg (Option.map _) hRead
  · rw [hDrop]
    exact .refl _

/-- The initiator up to its wait for the second message. -/
theorem initiator_sends {msg1 : List Byte} {state : SymmetricState Byte}
    (hMsg1 : ikWriteMsg1 na si peerStatic ei = some (msg1, state)) :
    Party.Reaches ikHandler ⟨runIkInitiator na si peerStatic, ei, {}, []⟩ msg1
      ⟨.op (.recvAll kMsg2Size) fun m => .ret (m.bind (ikReadMsg2 na si peerStatic ei state)), ei, {},
        [⟨.generateKeypair, ei⟩, ⟨.sendAll msg1, true⟩]⟩ := by
  rw [runIkInitiator_eq]
  refine .op (r := { answer := ei, loc := ei }) rfl rfl rfl ?_
  simp only [hMsg1]
  exact .op (r := { answer := true, loc := ei, sent := msg1 }) rfl rfl (List.append_nil _).symm (.refl _)

variable (sr er) in
/-- The first message reaches the responder, which then decides about it. -/
theorem responder_reads {msg1 : List Byte} {state : SymmetricState Byte}
    (hMsg1 : ikWriteMsg1 na si peerStatic ei = some (msg1, state)) (hLen : msg1.length = kMsg1Size) :
    (ikPair na si peerStatic ei sr er).Runs ikHandler ikHandler
      ⟨⟨.op (.recvAll kMsg2Size) fun m => .ret (m.bind (ikReadMsg2 na si peerStatic ei state)), ei, {},
        [⟨.generateKeypair, ei⟩, ⟨.sendAll msg1, true⟩]⟩,
       ⟨match ikReadMsg1 na sr ⟨msg1, hLen⟩ with
        | none => .ret none
        | some hello => .op .generateKeypair fun e2 =>
            match ikWriteMsg2 na hello e2 with
            | none => .ret none
            | some (msg2, result) => .op (.sendAll msg2) fun sent =>
                .ret (if sent then some result else none),
        er, {}, [⟨.recvAll kMsg1Size, some ⟨msg1, hLen⟩⟩]⟩⟩ := by
  refine (Pair.Runs.left (initiator_sends hMsg1) _).trans ?_
  simp only [runIkResponder_eq]
  exact Pair.Runs.right (reaches_recv hLen) _

theorem responder_sends {hello : IkHello Byte} {msg2 : List Byte} {result : IkResult Byte}
    (hMsg2 : ikWriteMsg2 na hello er = some (msg2, result))
    {trace : List (Σ o : IkOp Byte, IkAns o)} :
    Party.Reaches ikHandler
      ⟨.op .generateKeypair fun e2 => match ikWriteMsg2 na hello e2 with
        | none => .ret none
        | some (msg2, result) => .op (.sendAll msg2) fun sent =>
            .ret (if sent then some result else none), er, {}, trace⟩ msg2
      ⟨.ret (some result), er, {}, trace ++ [⟨.generateKeypair, er⟩] ++ [⟨.sendAll msg2, true⟩]⟩ := by
  refine .op (r := { answer := er, loc := er }) rfl rfl rfl ?_
  simp only [hMsg2]
  exact .op (r := { answer := true, loc := er, sent := msg2 }) rfl rfl (List.append_nil _).symm (.refl _)

/-- With the responder's key the handshake completes on both sides. -/
theorem ikPair_agrees (hNa : na.Contract) (hSi : si.Genuine na) (hSr : sr.Genuine na)
    (hEi : ei.Genuine na) (hEr : er.Genuine na) {msg1 msg2 : List Byte}
    {state : SymmetricState Byte} {result : IkResult Byte}
    (hMsg1 : ikWriteMsg1 na si sr.publicKey ei = some (msg1, state))
    (hMsg2 : ikWriteMsg2 na ⟨ei.publicKey, si.publicKey, state⟩ er = some (msg2, result)) :
    ∃ f, (ikPair na si sr.publicKey ei sr er).Runs ikHandler ikHandler f ∧
      f.left.prog = .ret (some ⟨⟨result.keys.recvKey, result.keys.sendKey⟩, sr.publicKey⟩) ∧
      f.right.prog = .ret (some result) := by
  have hLen1 := ikWriteMsg1_length hNa.toAeadContract hMsg1
  have hLen2 := ikWriteMsg2_length hNa.toAeadContract hMsg2
  have hHello := ikReadMsg1_ikWriteMsg1 hNa hSi hSr hEi hMsg1 hLen1
  have hRead := responder_reads sr er hMsg1 hLen1
  simp only [hHello] at hRead
  refine ⟨_, (hRead.trans (Pair.Runs.right (responder_sends hMsg2) _)).trans
    (Pair.Runs.left (reaches_recv hLen2) _), ?_, rfl⟩
  simp only [Option.bind_some, ikReadMsg2_ikWriteMsg2 hNa hSi hEi hEr hMsg2 hLen2]

variable (er) in
/-- With any other key the responder refuses, and the initiator never
gets an answer. -/
theorem ikPair_other (hNa : na.Symbolic) {msg1 : List Byte} {state : SymmetricState Byte}
    (hMsg1 : ikWriteMsg1 na si peerStatic ei = some (msg1, state))
    (hOther : peerStatic ≠ sr.publicKey) :
    ∃ f, (ikPair na si peerStatic ei sr er).Runs ikHandler ikHandler f ∧
      f.Done ikHandler ikHandler ∧ expire f.left.prog = .ret none ∧ f.right.prog = .ret none := by
  have hLen := ikWriteMsg1_length hNa.toAeadContract hMsg1
  have hRead := responder_reads sr er hMsg1 hLen
  simp only [ikReadMsg1_other hNa hMsg1 hLen hOther] at hRead
  exact ⟨_, hRead, ⟨rfl, rfl⟩, rfl, rfl⟩

/-- Whatever the order in which the two sides run, they end in one final
configuration. There, both have succeeded exactly if the initiator was given
the responder's static key, with keys that match crosswise and with the
initiator's static key known to the responder. -/
def IkAgrees (na : Sodium Byte) (si : Keypair Byte) (peerStatic : Key32 Byte)
    (ei sr er : Keypair Byte) : Prop :=
  ∃ f initiator responder,
    (∀ d, (ikPair na si peerStatic ei sr er).Runs ikHandler ikHandler d →
      d.Runs ikHandler ikHandler f) ∧
    f.Done ikHandler ikHandler ∧
    expire f.left.prog = .ret initiator ∧ f.right.prog = .ret responder ∧
    (initiator.isSome ↔ peerStatic = sr.publicKey) ∧
    (responder.isSome ↔ peerStatic = sr.publicKey) ∧
    ∀ a b, initiator = some a → responder = some b →
      a.keys.sendKey = b.keys.recvKey ∧ a.keys.recvKey = b.keys.sendKey ∧
      b.peerStatic = si.publicKey

/-- The two sides agree unless a key agreement degenerates. -/
theorem runIk_agrees (hNa : na.Symbolic) (hSi : si.Genuine na) (hSr : sr.Genuine na)
    (hEi : ei.Genuine na) (hEr : er.Genuine na)
    (hDh : ∀ own ∈ [si, ei], ∀ peer ∈ [peerStatic, sr.publicKey, er.publicKey],
      (dh na own.privateKey peer).isSome) :
    IkAgrees na si peerStatic ei sr er := by
  simp only [List.mem_cons, List.not_mem_nil, or_false, forall_eq_or_imp, forall_eq,
    Option.isSome_iff_exists] at hDh
  obtain ⟨⟨⟨ss, hSs⟩, -, se, hSe⟩, ⟨es, hEs⟩, -, ee, hEe⟩ := hDh
  obtain ⟨⟨msg1, state⟩, hMsg1⟩ : ∃ m, ikWriteMsg1 na si peerStatic ei = some m := by
    simp [ikWriteMsg1, hEs, hSs]
  by_cases hPeer : peerStatic = sr.publicKey
  · subst hPeer
    obtain ⟨⟨msg2, result⟩, hMsg2⟩ :
        ∃ m, ikWriteMsg2 na ⟨ei.publicKey, si.publicKey, state⟩ er = some m := by
      rw [dh_genuine hNa.toContract hEi hEr] at hEe
      rw [dh_genuine hNa.toContract hSi hEr] at hSe
      simp [ikWriteMsg2, hEe, hSe]
    obtain ⟨f, hRun, hLeft, hRight⟩ := ikPair_agrees hNa.toContract hSi hSr hEi hEr hMsg1 hMsg2
    have hDone : f.Done ikHandler ikHandler := by
      simp [Pair.Done, Pair.stepLeft, Pair.stepRight, Party.step, hLeft, hRight]
    refine ⟨f, some ⟨⟨result.keys.recvKey, result.keys.sendKey⟩, sr.publicKey⟩, some result,
      fun d hd => hRun.confluent hDone hd, hDone, ?_, hRight, by simp, by simp, ?_⟩
    · rw [hLeft]
      rfl
    · intro a b hA hB
      cases hA
      cases hB
      refine ⟨rfl, rfl, ?_⟩
      obtain ⟨_, _, _, _, -, -, -, -, -, rfl⟩ := ikWriteMsg2_some hNa.toAeadContract hMsg2
      rfl
  · obtain ⟨f, hRun, hDone, hLeft, hRight⟩ := ikPair_other er hNa hMsg1 hPeer
    exact ⟨f, none, none, fun d hd => hRun.confluent hDone hd, hDone, hLeft, hRight,
      by simp [hPeer], by simp [hPeer], fun _ _ h => by cases h⟩

theorem runIk_agrees_terms :
    IkAgrees termSodium (termKeypair 1) (termKeypair 2).publicKey (termKeypair 3) (termKeypair 2)
      (termKeypair 4) :=
  runIk_agrees termSodium_symbolic rfl rfl rfl rfl fun _ _ _ _ => rfl

end Handshake

end NoCapKVM.Discovery
