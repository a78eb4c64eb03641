import NoCapKVM.Discovery.NetworkAttacker
import NoCapKVM.Discovery.NoiseIkAgreement

/-! The two messages of the handshake as functions of what goes into them. What a side reads
is what the other side would have written from the same. -/
open NoCapKVM.Discovery.Sym
namespace NoCapKVM.Discovery

section

variable {hidden : Set Atom} {state : SymmetricState Sym}

/-- A key derivation hides both of its results from everybody who lacks its
input or the key before it. -/
theorem hkdf2_hidden {ck : Key32 Sym} {ikm : List Sym} (h : ¬ (AllOpen hidden ikm ∧ AllOpen hidden ck.val)) :
    ¬ AllOpen hidden (hkdf2 symSodium ck ikm).1.val ∧ ¬ AllOpen hidden (hkdf2 symSodium ck ikm).2.val := by
  have hTemp : ¬ AllOpen hidden (symSodium.hmacsha256 ikm ck).val := fun hOpen => h (allOpen_wrap.mp hOpen)
  exact ⟨fun hOpen => hTemp (allOpen_wrap.mp hOpen).2, fun hOpen => hTemp (allOpen_wrap.mp hOpen).2⟩

/-- So a chaining key that has taken in a hidden secret is hidden, and stays
hidden whatever else goes into it. -/
theorem mixKey_hidden {ikm : Key32 Sym} (h : ¬ AllOpen hidden ikm.val ∨ ¬ AllOpen hidden state.ck.val) :
    ¬ AllOpen hidden (mixKey symSodium state ikm).ck.val ∧ ¬ AllOpen hidden (mixKey symSodium state ikm).k.val :=
  hkdf2_hidden (not_and_or.mpr h)

/-- The transport keys are hidden if the chaining key that they
come from is. -/
theorem split_hidden (h : ¬ AllOpen hidden state.ck.val) :
    ¬ AllOpen hidden (split symSodium state).1.val ∧ ¬ AllOpen hidden (split symSodium state).2.val :=
  hkdf2_hidden fun hBoth => h hBoth.2

end

section Hail

/-- The state that encrypts the static key. -/
noncomputable def hailKeyed (responderStatic re es : Key32 Sym) : SymmetricState Sym :=
  mixKey symSodium (mixHash symSodium (ikStart symSodium responderStatic) re.val) es

noncomputable def hailStatic (responderStatic re rs es : Key32 Sym) : List Sym × SymmetricState Sym :=
  encryptAndHash symSodium (hailKeyed responderStatic re es) rs.val

noncomputable def hailPayload (responderStatic re rs es ss : Key32 Sym) : List Sym × SymmetricState Sym :=
  encryptAndHash symSodium (mixKey symSodium (hailStatic responderStatic re rs es).2 ss) []

/-- The first message and the state after it, from the keys and secrets that
go into them. -/
noncomputable def hail (responderStatic re rs es ss : Key32 Sym) : List Sym × SymmetricState Sym :=
  (re.val ++ (hailStatic responderStatic re rs es).1 ++ (hailPayload responderStatic re rs es ss).1,
    (hailPayload responderStatic re rs es ss).2)

variable {p re rs es ss p' re' rs' es' ss' : Key32 Sym}

theorem hailStatic_fst :
    (hailStatic p re rs es).1 =
      encrypt rs.val (hailKeyed p re es).h.val (nonceBytes 0) (hailKeyed p re es).k := rfl

theorem hailPayload_fst :
    (hailPayload p re rs es ss).1 = encrypt [] (hailStatic p re rs es).2.h.val (nonceBytes 0)
      (mixKey symSodium (hailStatic p re rs es).2 ss).k := rfl

/-- The static key is encrypted to 48 bytes, its tag included. -/
theorem hailStatic_length : (hailStatic p re rs es).1.length = 48 := by
  rw [hailStatic_fst, encrypt_length, rs.property]

/-- With the term model of the library, the first message can always be
written. -/
theorem exists_ikWriteMsg1 (own e : Keypair Sym) (peerStatic : Key32 Sym) :
    ∃ msg1 state, ikWriteMsg1 symSodium own peerStatic e = some (msg1, state) :=
  ⟨_, _, rfl⟩

/-- The ephemeral key stands in the clear at the start of the
first message. -/
theorem hail_take : (hail p re rs es ss).1.take 32 = re.val := by
  simp only [hail, List.append_assoc]
  exact List.take_left' re.property

/-- What the initiator writes is this function of its keys and of the two
secrets that it shares with the responder. -/
theorem ikWriteMsg1_hail {own e : Keypair Sym} {peerStatic : Key32 Sym} {msg1 : List Sym}
    {state : SymmetricState Sym} (h : ikWriteMsg1 symSodium own peerStatic e = some (msg1, state)) :
    ∃ es ss, dh symSodium e.privateKey peerStatic = some es ∧ dh symSodium own.privateKey peerStatic = some ss ∧
      hail peerStatic e.publicKey own.publicKey es ss = (msg1, state) := by
  obtain ⟨es, ss, ctS, ctPayload, state₁, hEs, hSs, hFirst, hSecond, rfl, -, -⟩ :=
    ikWriteMsg1_some symSodium_symbolic.toAeadContract h
  have hStatic : hailStatic peerStatic e.publicKey own.publicKey es = (ctS, state₁) := hFirst
  have hPayload : hailPayload peerStatic e.publicKey own.publicKey es ss = (ctPayload, state) := by
    rw [hailPayload, hStatic]
    exact hSecond
  refine ⟨es, ss, hEs, hSs, ?_⟩
  rw [hail, hStatic, hPayload]

/-- What decrypts is what would have been encrypted. -/
theorem decryptAndHash_some {state state' : SymmetricState Sym} (hKey : state.hasKey = true)
    {ct plaintext : List Sym} (h : decryptAndHash symSodium state ct = some (plaintext, state')) :
    encryptAndHash symSodium state plaintext = (ct, state') := by
  rw [decryptAndHash, if_pos hKey, Option.bind_eq_bind, Option.bind_eq_some_iff] at h
  obtain ⟨out, hOut, hRest⟩ := h
  obtain ⟨rfl, rfl⟩ := Prod.mk.inj (Option.some.inj hRest)
  have hCt : ct = aeadEncrypt symSodium state.k state.n state.h.val out := decrypt_some hOut
  rw [encryptAndHash, if_pos hKey, ← hCt]

/-- The three parts of the first message are all of it, so a reader that has
checked the parts has checked the message. -/
theorem msg1_eq_slices (msg1 : Bytes Sym kMsg1Size) :
    msg1.val = (msg1.slice 0 32 (by decide)).val ++ (msg1.slice 32 48 (by decide)).val ++
      (msg1.slice 80 16 (by decide)).val := by
  have hLast : (msg1.val.drop 80).take 16 = msg1.val.drop 80 := by
    apply List.take_of_length_le
    rw [List.length_drop, msg1.property]
    decide
  have hRest : (msg1.val.drop 32).take 48 ++ msg1.val.drop 80 = msg1.val.drop 32 := by
    have hDrop : msg1.val.drop 80 = (msg1.val.drop 32).drop 48 := by rw [List.drop_drop]
    rw [hDrop, List.take_append_drop]
  simp only [Bytes.slice_val, List.drop_zero, hLast, List.append_assoc, hRest, List.take_append_drop]

/-- What the responder accepts is the same function of the keys that it has
found in the message. This is where both transcripts meet. -/
theorem ikReadMsg1_hail {own : Keypair Sym} {msg1 : Bytes Sym kMsg1Size} {hello : IkHello Sym}
    (h : ikReadMsg1 symSodium own msg1 = some hello) :
    ∃ es ss, dh symSodium own.privateKey hello.re = some es ∧
      dh symSodium own.privateKey hello.rsInitiator = some ss ∧
      hail own.publicKey hello.re hello.rsInitiator es ss = (msg1.val, hello.state) := by
  simp only [ikReadMsg1, Option.bind_eq_bind, Option.bind_eq_some_iff] at h
  obtain ⟨es, hEs, ⟨rsBytes, state₁⟩, hStatic, h⟩ := h
  split at h
  case isFalse => cases h
  case isTrue hRs =>
    simp only [Option.bind_eq_some_iff, Option.pure_def, Option.some.injEq] at h
    obtain ⟨ss, hSs, ⟨nothing, state⟩, hPayload, rfl⟩ := h
    have hStatic := decryptAndHash_some (mixKey_hasKey symSodium _ es) hStatic
    have hPayload := decryptAndHash_some (mixKey_hasKey symSodium _ ss) hPayload
    -- The ciphertext has 16 symbols, all of them the tag.
    have hNothing : nothing = [] := by
      have hLen := encryptAndHash_length symSodium_symbolic.toAeadContract (mixKey_hasKey symSodium _ ss) hPayload
      have hTag := (msg1.slice 80 16 (by decide)).property
      rw [hTag] at hLen
      exact List.length_eq_zero_iff.mp (by omega)
    subst hNothing
    have hFirst : hailStatic own.publicKey (msg1.slice 0 32 (by decide)) ⟨rsBytes, hRs⟩ es =
        ((msg1.slice 32 48 (by decide)).val, state₁) := hStatic
    have hSecond : hailPayload own.publicKey (msg1.slice 0 32 (by decide)) ⟨rsBytes, hRs⟩ es ss =
        ((msg1.slice 80 16 (by decide)).val, state) := by
      rw [hailPayload, hFirst]
      exact hPayload
    refine ⟨es, ss, hEs, hSs, ?_⟩
    rw [hail, hFirst, hSecond, ← msg1_eq_slices]

/-- A transcript belongs to one first message. -/
theorem hailStatic_inj (h : (hailStatic p re rs es).2.h = (hailStatic p' re' rs' es').2.h) :
    p = p' ∧ re = re' ∧ rs = rs' ∧ (hailStatic p re rs es).1 = (hailStatic p' re' rs' es').1 := by
  obtain ⟨hKeyed, hStatic⟩ := mixHash_injective symSodium_symbolic h
  obtain ⟨hStart, hRe⟩ := mixHash_injective symSodium_symbolic hKeyed
  obtain ⟨-, hP⟩ := mixHash_injective symSodium_symbolic hStart
  exact ⟨Subtype.ext hP, Subtype.ext hRe, Subtype.ext (encrypt_inj hStatic).1, hStatic⟩

/-- A first message with the same encrypted key and the same tag is the same,
whatever secrets were used. -/
theorem hail_fst_congr (hStatic : (hailStatic p re rs es).1 = (hailStatic p re rs es').1)
    (hTag : (hailPayload p re rs es ss).1 = (hailPayload p re rs es' ss').1) :
    (hail p re rs es ss).1 = (hail p re rs es' ss').1 := by
  simp only [hail, hStatic, hTag]

/-- The handshake hash after the first message determines its keys and all of
its bytes, because nothing is hashed that loses a part. -/
theorem hail_inj (h : (hail p re rs es ss).2.h = (hail p' re' rs' es' ss').2.h) :
    p = p' ∧ re = re' ∧ rs = rs' ∧ (hail p re rs es ss).1 = (hail p' re' rs' es' ss').1 := by
  obtain ⟨hStatic, hPayload⟩ := mixHash_injective symSodium_symbolic h
  obtain ⟨rfl, rfl, rfl, hFirst⟩ := hailStatic_inj hStatic
  exact ⟨rfl, rfl, rfl, hail_fst_congr hFirst hPayload⟩

/-- Two sides with the same transcript are the two ends of one
first message. -/
theorem ikMsg1_match {si sr e : Keypair Sym} {peerStatic : Key32 Sym} {msg1 : List Sym}
    {state : SymmetricState Sym} {msg1' : Bytes Sym kMsg1Size} {hello : IkHello Sym}
    (hWrite : ikWriteMsg1 symSodium si peerStatic e = some (msg1, state))
    (hRead : ikReadMsg1 symSodium sr msg1' = some hello) (hSame : state.h = hello.state.h)
    (hSi : si.Genuine symSodium) (hSr : sr.Genuine symSodium) (hE : e.Genuine symSodium) :
    peerStatic = sr.publicKey ∧ msg1 = msg1'.val ∧ hello = ⟨e.publicKey, si.publicKey, state⟩ := by
  obtain ⟨es, ss, -, -, hHail⟩ := ikWriteMsg1_hail hWrite
  obtain ⟨es', ss', -, -, hHail'⟩ := ikReadMsg1_hail hRead
  have hTranscripts : (hail peerStatic e.publicKey si.publicKey es ss).2.h =
      (hail sr.publicKey hello.re hello.rsInitiator es' ss').2.h := by
    rw [hHail, hHail']
    exact hSame
  obtain ⟨rfl, -, -, hMsg1⟩ := hail_inj hTranscripts
  rw [hHail, hHail'] at hMsg1
  have hMsg1 : msg1 = msg1'.val := hMsg1
  subst hMsg1
  have hRead' := ikReadMsg1_ikWriteMsg1 symSodium_symbolic.toContract hSi hSr hE hWrite msg1'.property
  rw [Subtype.coe_eta, hRead] at hRead'
  exact ⟨rfl, rfl, Option.some.inj hRead'⟩

end Hail

section Reply

noncomputable def replyKeyed (state : SymmetricState Sym) (re2 ee se : Key32 Sym) : SymmetricState Sym :=
  mixKey symSodium (mixKey symSodium (mixHash symSodium state re2.val) ee) se

noncomputable def replyTag (state : SymmetricState Sym) (re2 ee se : Key32 Sym) : List Sym × SymmetricState Sym :=
  encryptAndHash symSodium (replyKeyed state re2 ee se) []

/-- The second message and the two transport keys, the initiator's first. -/
noncomputable def reply (state : SymmetricState Sym) (re2 ee se : Key32 Sym) :
    List Sym × Key32 Sym × Key32 Sym :=
  (re2.val ++ (replyTag state re2 ee se).1, split symSodium (replyTag state re2 ee se).2)

variable {state : SymmetricState Sym} {re2 ee se : Key32 Sym}

theorem replyTag_fst :
    (replyTag state re2 ee se).1 = encrypt [] (mixHash symSodium state re2.val).h.val (nonceBytes 0)
      (replyKeyed state re2 ee se).k := rfl

/-- With the term model of the library, the second message can always be
written. -/
theorem exists_ikWriteMsg2 (hello : IkHello Sym) (e2 : Keypair Sym) :
    ∃ msg2 result, ikWriteMsg2 symSodium hello e2 = some (msg2, result) :=
  ⟨_, _, rfl⟩

/-- The responder's ephemeral key stands in the clear at the start of the
second message. -/
theorem reply_take : (reply state re2 ee se).1.take 32 = re2.val :=
  List.take_left' re2.property

/-- The second message depends on its secrets only through the
key of its tag. -/
theorem reply_fst_congr {ee' se' : Key32 Sym}
    (h : (replyKeyed state re2 ee se).k = (replyKeyed state re2 ee' se').k) :
    (reply state re2 ee se).1 = (reply state re2 ee' se').1 := by
  simp only [reply, replyTag_fst, h]

/-- What the responder writes is this function of the state after the first
message and of its own keys. -/
theorem ikWriteMsg2_reply {hello : IkHello Sym} {e2 : Keypair Sym} {msg2 : List Sym} {result : IkResult Sym}
    (h : ikWriteMsg2 symSodium hello e2 = some (msg2, result)) :
    ∃ ee se, dh symSodium e2.privateKey hello.re = some ee ∧
      dh symSodium e2.privateKey hello.rsInitiator = some se ∧
      reply hello.state e2.publicKey ee se = (msg2, result.keys.recvKey, result.keys.sendKey) ∧
      result.peerStatic = hello.rsInitiator := by
  obtain ⟨ee, se, ct2, state₂, hEe, hSe, hCt, rfl, -, rfl⟩ :=
    ikWriteMsg2_some symSodium_symbolic.toAeadContract h
  have hTag : replyTag hello.state e2.publicKey ee se = (ct2, state₂) := hCt
  refine ⟨ee, se, hEe, hSe, ?_, rfl⟩
  rw [reply, hTag]

/-- What the initiator accepts is the same function, with the ephemeral key
that it has found in the message. -/
theorem ikReadMsg2_reply {own e : Keypair Sym} {peerStatic : Key32 Sym} {state : SymmetricState Sym}
    {msg2 : Bytes Sym kMsg2Size} {r : IkResult Sym}
    (h : ikReadMsg2 symSodium own peerStatic e state msg2 = some r) :
    ∃ re2 ee se, dh symSodium e.privateKey re2 = some ee ∧ dh symSodium own.privateKey re2 = some se ∧
      reply state re2 ee se = (msg2.val, r.keys.sendKey, r.keys.recvKey) ∧ r.peerStatic = peerStatic := by
  simp only [ikReadMsg2, Option.bind_eq_bind, Option.bind_eq_some_iff, Option.pure_def, Option.some.injEq] at h
  obtain ⟨ee, hEe, se, hSe, ⟨nothing, state₂⟩, hTag, rfl⟩ := h
  have hTag := decryptAndHash_some (mixKey_hasKey symSodium _ se) hTag
  have hNothing : nothing = [] := by
    have hLen := encryptAndHash_length symSodium_symbolic.toAeadContract (mixKey_hasKey symSodium _ se) hTag
    have hTagLen := (msg2.slice 32 16 (by decide)).property
    rw [hTagLen] at hLen
    exact List.length_eq_zero_iff.mp (by omega)
  subst hNothing
  have hReply : replyTag state (msg2.slice 0 32 (by decide)) ee se = ((msg2.slice 32 16 (by decide)).val, state₂) := hTag
  have hLast : (msg2.val.drop 32).take 16 = msg2.val.drop 32 := by
    apply List.take_of_length_le
    rw [List.length_drop, msg2.property]
    decide
  refine ⟨msg2.slice 0 32 (by decide), ee, se, hEe, hSe, ?_, rfl⟩
  rw [reply, hReply]
  simp only [Bytes.slice_val, List.drop_zero, hLast, List.take_append_drop]

end Reply

section

variable {hidden : Set Atom}

/-- A hidden static secret hides the chaining key after the first message. -/
theorem hail_hidden {p re rs es ss : Key32 Sym} {msg1 : List Sym} {state : SymmetricState Sym}
    (hHail : hail p re rs es ss = (msg1, state)) (h : ¬ AllOpen hidden ss.val) : ¬ AllOpen hidden state.ck.val := by
  obtain rfl := congrArg Prod.snd hHail
  exact (mixKey_hidden (.inl h)).1

/-- A hidden ephemeral secret hides everything that follows, and so does a
chaining key that was hidden before. -/
theorem replyKeyed_hidden {state : SymmetricState Sym} {re2 ee se : Key32 Sym}
    (h : ¬ AllOpen hidden ee.val ∨ ¬ AllOpen hidden state.ck.val) :
    ¬ AllOpen hidden (replyKeyed state re2 ee se).ck.val ∧ ¬ AllOpen hidden (replyKeyed state re2 ee se).k.val :=
  mixKey_hidden (.inr (mixKey_hidden h).1)

/-- In either case both transport keys are hidden at the end of
the handshake. -/
theorem reply_hidden {state : SymmetricState Sym} {re2 ee se : Key32 Sym} {msg2 : List Sym} {k1 k2 : Key32 Sym}
    (hReply : reply state re2 ee se = (msg2, k1, k2)) (h : ¬ AllOpen hidden ee.val ∨ ¬ AllOpen hidden state.ck.val) :
    ¬ AllOpen hidden k1.val ∧ ¬ AllOpen hidden k2.val := by
  have hCk : ¬ AllOpen hidden (replyTag state re2 ee se).2.ck.val := (replyKeyed_hidden h).1
  have hSplit : split symSodium (replyTag state re2 ee se).2 = (k1, k2) := congrArg Prod.snd hReply
  have hKeys := split_hidden hCk
  rw [hSplit] at hKeys
  exact hKeys

end

/-- A key or a secret that is no ciphertext contains none. -/
theorem sealed_not_mem_wrap {s : Sym} {place : Nat} {plaintext ad : List Sym} {nonce : List UInt8} {key : List Sym}
    (hs : ∀ place plaintext ad nonce key, s ≠ .sealed place plaintext ad nonce key) :
    .sealed place plaintext ad nonce key ∉ (wrap s).val := by
  intro hMem
  rcases mem_wrap hMem with hEq | hEq
  · exact hs _ _ _ _ _ hEq.symm
  · cases hEq

/-- A ciphertext tells what it was made of, and with which key. -/
theorem sealed_mem_encrypt {place : Nat} {plaintext plaintext' ad ad' : List Sym} {nonce nonce' : List UInt8}
    {key : List Sym} {key' : Key32 Sym}
    (h : .sealed place plaintext ad nonce key ∈ encrypt plaintext' ad' nonce' key') :
    plaintext = plaintext' ∧ ad = ad' ∧ nonce = nonce' ∧ key = key'.val := by
  obtain ⟨i, -, hEq⟩ := List.mem_map.mp h
  obtain ⟨-, rfl, rfl, rfl, rfl⟩ := Sym.sealed.inj hEq
  exact ⟨rfl, rfl, rfl, rfl⟩

section

variable {hidden : Set Atom} {wrote : Set Sym}

/-- A ciphertext gives away its plaintext only to somebody who has its key. -/
theorem encrypt_knowable {plaintext ad : List Sym} {nonce : List UInt8} {key : Key32 Sym}
    (hPlaintext : AllOpen hidden key.val → AllWithin (knowable hidden wrote) plaintext)
    (hWrote : AllWithin wrote (encrypt plaintext ad nonce key)) :
    AllWithin (knowable hidden wrote) (encrypt plaintext ad nonce key) := by
  intro x hx
  have hMem := hWrote x hx
  obtain ⟨i, -, rfl⟩ := List.mem_map.mp hx
  have hKeyed := fun hKey => within_knowable.mp (hPlaintext hKey)
  exact ⟨fun hKey => (hKeyed hKey).1, fun hKey => (hKeyed hKey).2, .inr hMem⟩

/-- The first message gives away nothing but the two public keys in it. -/
theorem hail_knowable {p re rs es ss : Key32 Sym} (hRe : AllWithin (knowable hidden wrote) re.val)
    (hRs : AllWithin (knowable hidden wrote) rs.val) (hWrote : AllWithin wrote (hail p re rs es ss).1) :
    AllWithin (knowable hidden wrote) (hail p re rs es ss).1 := by
  simp only [hail, AllWithin, List.forall_mem_append] at hWrote ⊢
  refine ⟨⟨hRe, ?_⟩, ?_⟩
  · exact encrypt_knowable (fun _ => hRs) hWrote.1.2
  · exact encrypt_knowable (fun _ _ hx => nomatch hx) hWrote.2

/-- The second message gives away nothing but the responder's
ephemeral key. -/
theorem reply_knowable {state : SymmetricState Sym} {re2 ee se : Key32 Sym}
    (hRe : AllWithin (knowable hidden wrote) re2.val) (hWrote : AllWithin wrote (reply state re2 ee se).1) :
    AllWithin (knowable hidden wrote) (reply state re2 ee se).1 := by
  simp only [reply, AllWithin, List.forall_mem_append] at hWrote ⊢
  exact ⟨hRe, encrypt_knowable (fun _ _ hx => nomatch hx) hWrote.2⟩

end

/-- The only empty plaintext in a first message is the payload. -/
theorem sealed_mem_hail {p e rs es ss : Key32 Sym} {key key' : List Sym} (hE : e = wrap (.pub key'))
    {ad : List Sym} {nonce : List UInt8} (h : .sealed 0 [] ad nonce key ∈ (hail p e rs es ss).1) :
    ad = (hailStatic p e rs es).2.h.val ∧ nonce = nonceBytes 0 ∧
      key = (mixKey symSodium (hailStatic p e rs es).2 ss).k.val := by
  simp only [hail, List.mem_append] at h
  rcases h with (hPub | hStatic) | hPayload
  · rw [hE] at hPub
    exact absurd hPub (sealed_not_mem_wrap fun _ _ _ _ _ hEq => by cases hEq)
  · have hText := (sealed_mem_encrypt hStatic).1
    have hLen := rs.property
    rw [← hText] at hLen
    cases hLen
  · exact (sealed_mem_encrypt hPayload).2

/-- The only ciphertext in the second message is its tag. -/
theorem sealed_mem_reply {state : SymmetricState Sym} {e2 ee se : Key32 Sym} {key key' : List Sym}
    (hE : e2 = wrap (.pub key')) {ad : List Sym} {nonce : List UInt8}
    (h : .sealed 0 [] ad nonce key ∈ (reply state e2 ee se).1) :
    ad = (mixHash symSodium state e2.val).h.val ∧ nonce = nonceBytes 0 ∧
      key = (replyKeyed state e2 ee se).k.val := by
  simp only [reply, List.mem_append] at h
  rcases h with hPub | hTag
  · rw [hE] at hPub
    exact absurd hPub (sealed_not_mem_wrap fun _ _ _ _ _ hEq => by cases hEq)
  · exact (sealed_mem_encrypt hTag).2

/-- A key is never empty, which is how the tag of a handshake is told
from a record. -/
theorem key32_ne_nil (key : Key32 Sym) : key.val ≠ [] := by
  intro hNil
  have hLen := key.property
  rw [hNil] at hLen
  cases hLen

/-- What a message holds was encrypted for a transcript. -/
theorem ad_ne_nil_of_mem_hail {p e rs es ss : Key32 Sym} {key key' : List Sym} (hE : e = wrap (.pub key'))
    {place : Nat} {plaintext ad : List Sym} {nonce : List UInt8}
    (h : .sealed place plaintext ad nonce key ∈ (hail p e rs es ss).1) : ad ≠ [] := by
  simp only [hail, List.mem_append] at h
  rcases h with (hPub | hStatic) | hPayload
  · rw [hE] at hPub
    exact absurd hPub (sealed_not_mem_wrap fun _ _ _ _ _ hEq => by cases hEq)
  · rw [(sealed_mem_encrypt hStatic).2.1]
    exact key32_ne_nil _
  · rw [(sealed_mem_encrypt hPayload).2.1]
    exact key32_ne_nil _

/-- What is encrypted in the handshake is bound to a handshake hash, and a
record is bound to nothing. -/
theorem ad_ne_nil_of_mem_reply {state : SymmetricState Sym} {e2 ee se : Key32 Sym} {key key' : List Sym}
    (hE : e2 = wrap (.pub key')) {place : Nat} {plaintext ad : List Sym} {nonce : List UInt8}
    (h : .sealed place plaintext ad nonce key ∈ (reply state e2 ee se).1) : ad ≠ [] := by
  simp only [reply, List.mem_append] at h
  rcases h with hPub | hTag
  · rw [hE] at hPub
    exact absurd hPub (sealed_not_mem_wrap fun _ _ _ _ _ hEq => by cases hEq)
  · rw [(sealed_mem_encrypt hTag).2.1]
    exact key32_ne_nil _

/-- The first message ends in the tag under the key that both static keys have
gone into. -/
theorem tag_mem_hail {p re rs es ss : Key32 Sym} :
    .sealed 0 [] (hailStatic p re rs es).2.h.val (nonceBytes 0) (mixKey symSodium (hailStatic p re rs es).2 ss).k.val ∈
      (hail p re rs es ss).1 := by
  obtain ⟨rest, hEq⟩ := encrypt_eq_cons [] (hailStatic p re rs es).2.h.val (nonceBytes 0)
    (mixKey symSodium (hailStatic p re rs es).2 ss).k
  apply List.mem_append_right
  rw [hailPayload_fst, hEq]
  exact List.mem_cons_self ..

/-- The second message is the responder's ephemeral key with the tag under the
last key of the handshake. -/
theorem tag_mem_reply {state : SymmetricState Sym} {re2 ee se : Key32 Sym} :
    .sealed 0 [] (mixHash symSodium state re2.val).h.val (nonceBytes 0) (replyKeyed state re2 ee se).k.val ∈
      (reply state re2 ee se).1 := by
  obtain ⟨rest, hEq⟩ := encrypt_eq_cons [] (mixHash symSodium state re2.val).h.val (nonceBytes 0)
    (replyKeyed state re2 ee se).k
  apply List.mem_append_right
  rw [replyTag_fst, hEq]
  exact List.mem_cons_self ..

/-- The two messages have transcripts of their own. -/
theorem hailStatic_ne_reply {p re rs es re2 : Key32 Sym} {state : SymmetricState Sym} :
    (hailStatic p re rs es).2.h ≠ (mixHash symSodium state re2.val).h := by
  intro hEq
  have hLen := congrArg List.length (mixHash_injective symSodium_symbolic hEq).2
  rw [show (aeadEncrypt symSodium _ _ _ _).length = 48 from hailStatic_length, re2.property] at hLen
  cases hLen

end NoCapKVM.Discovery
