import NoCapKVM.Discovery.NoiseIkAuthentication

/-! What a session takes from its channels was put into them by the peer, in the same order. -/
namespace NoCapKVM.Discovery

open Thread NoCapKVM.Discovery.Sym

/-- Two counters have different nonces. -/
theorem nonceBytes_injective {n n' : UInt64} (h : nonceBytes n = nonceBytes n') : n = n' := by
  have hByte : ∀ i < 8, n.toNat / 2 ^ (8 * i) % 2 ^ 8 = n'.toNat / 2 ^ (8 * i) % 2 ^ 8 := by
    intro i hI
    have hMap := List.append_cancel_left h
    have hAt := congrArg (fun l => l[i]?) hMap
    simp only [List.getElem?_map, List.getElem?_range hI, Option.map_some, Option.some.injEq] at hAt
    have hNat := congrArg UInt8.toNat hAt
    have hShift : (8 * i.toUInt64).toNat % 64 = 8 * i := by
      rw [UInt64.toNat_mul, UInt64.toNat_ofNat', UInt64.toNat_ofNat, Nat.mod_eq_of_lt (by omega : i < 2 ^ 64)]
      simp only [Nat.reducePow, Nat.reduceMod]
      omega
    rw [UInt64.toNat_toUInt8, UInt64.toNat_toUInt8, UInt64.toNat_shiftRight, UInt64.toNat_shiftRight, hShift,
      Nat.shiftRight_eq_div_pow, Nat.shiftRight_eq_div_pow] at hNat
    exact hNat
  apply UInt64.toNat.inj
  apply Nat.eq_of_testBit_eq
  intro j
  by_cases hJ : j < 64
  · have hSplit : j % 8 + 8 * (j / 8) = j := Nat.mod_add_div j 8
    have hBit := congrArg (fun m => m.testBit (j % 8)) (hByte (j / 8) (by omega))
    simp only [Nat.testBit_mod_two_pow, Nat.testBit_div_two_pow, hSplit] at hBit
    simpa [Nat.mod_lt] using hBit
  · have hBound : 2 ^ 64 ≤ 2 ^ j := Nat.pow_le_pow_right (by decide) (by omega)
    rw [Nat.testBit_lt_two_pow (Nat.lt_of_lt_of_le n.toNat_lt hBound),
      Nat.testBit_lt_two_pow (Nat.lt_of_lt_of_le n'.toNat_lt hBound)]

/-- In the term model, a derived key tells what it was derived from. -/
theorem hkdf2_fst_inj {ck ck' : Key32 Sym} {ikm ikm' : List Sym}
    (h : (hkdf2 symSodium ck ikm).1 = (hkdf2 symSodium ck' ikm').1) : ck = ck' ∧ ikm = ikm' := by
  obtain ⟨-, hTemp⟩ := Sym.mac.inj (wrap_injective h)
  obtain ⟨hIkm, hCk⟩ := Sym.mac.inj (wrap_injective (Subtype.ext hTemp))
  exact ⟨Subtype.ext hCk, hIkm⟩

/-- So does the second one of the pair. -/
theorem hkdf2_snd_inj {ck ck' : Key32 Sym} {ikm ikm' : List Sym}
    (h : (hkdf2 symSodium ck ikm).2 = (hkdf2 symSodium ck' ikm').2) : ck = ck' ∧ ikm = ikm' := by
  obtain ⟨-, hTemp⟩ := Sym.mac.inj (wrap_injective h)
  obtain ⟨hIkm, hCk⟩ := Sym.mac.inj (wrap_injective (Subtype.ext hTemp))
  exact ⟨Subtype.ext hCk, hIkm⟩

/-- The two keys of a pair are never the same, not even those of
different pairs. -/
theorem hkdf2_fst_ne_snd {ck ck' : Key32 Sym} {ikm ikm' : List Sym} :
    (hkdf2 symSodium ck ikm).1 ≠ (hkdf2 symSodium ck' ikm').2 := by
  intro h
  obtain ⟨hMessage, -⟩ := Sym.mac.inj (wrap_injective h)
  cases (List.cons.inj hMessage).1

/-- The transport keys of the initiator and of the responder, from the last
two secrets. -/
noncomputable def keyPair (ck ee se : Key32 Sym) : Key32 Sym × Key32 Sym :=
  hkdf2 symSodium (hkdf2 symSodium (hkdf2 symSodium ck ee.val).1 se.val).1 []

/-- The initiator's key tells the whole pair, and the secret of the two
ephemeral keys. -/
theorem keyPair_fst_inj {ck ee se ck' ee' se' : Key32 Sym} (h : (keyPair ck ee se).1 = (keyPair ck' ee' se').1) :
    ee = ee' ∧ keyPair ck ee se = keyPair ck' ee' se' := by
  obtain ⟨hSe, -⟩ := hkdf2_fst_inj h
  obtain ⟨hEe, hSeVal⟩ := hkdf2_fst_inj hSe
  obtain ⟨rfl, hEeVal⟩ := hkdf2_fst_inj hEe
  obtain rfl : ee = ee' := Subtype.ext hEeVal
  obtain rfl : se = se' := Subtype.ext hSeVal
  exact ⟨rfl, rfl⟩

/-- So does the responder's key. Sessions with one key in common therefore
have both. -/
theorem keyPair_snd_inj {ck ee se ck' ee' se' : Key32 Sym} (h : (keyPair ck ee se).2 = (keyPair ck' ee' se').2) :
    ee = ee' ∧ keyPair ck ee se = keyPair ck' ee' se' := by
  obtain ⟨hSe, -⟩ := hkdf2_snd_inj h
  obtain ⟨hEe, hSeVal⟩ := hkdf2_fst_inj hSe
  obtain ⟨rfl, hEeVal⟩ := hkdf2_fst_inj hEe
  obtain rfl : ee = ee' := Subtype.ext hEeVal
  obtain rfl : se = se' := Subtype.ext hSeVal
  exact ⟨rfl, rfl⟩

/-- The keys of a handshake are the pair from its last two secrets. -/
theorem reply_keyPair {state : SymmetricState Sym} {re2 ee se : Key32 Sym} {msg2 : List Sym} {k1 k2 : Key32 Sym}
    (h : reply state re2 ee se = (msg2, k1, k2)) : (k1, k2) = keyPair state.ck ee se :=
  (congrArg Prod.snd h).symm

/-- A product of two private keys tells which two. -/
theorem multiply_eq_shared {key point : Key32 Sym} {a b : List Sym}
    (h : multiply key point = wrap (sharedOf a b)) : key.val = a ∨ key.val = b := by
  unfold multiply at h
  split at h
  case h_1 key' _ _ =>
    have hShared := wrap_injective h
    rcases sharedOf_cases key.val key' with hLeft | hLeft
    · rw [hLeft] at hShared
      rcases sharedOf_cases a b with hRight | hRight
      · rw [hRight] at hShared
        exact .inl (Sym.shared.inj hShared).1
      · rw [hRight] at hShared
        exact .inr (Sym.shared.inj hShared).1
    · rw [hLeft] at hShared
      rcases sharedOf_cases a b with hRight | hRight
      · rw [hRight] at hShared
        exact .inr (Sym.shared.inj hShared).2
      · rw [hRight] at hShared
        exact .inl (Sym.shared.inj hShared).2
  case h_2 =>
    have hMixed := wrap_injective h
    rcases sharedOf_cases a b with hRight | hRight
    · rw [hRight] at hMixed
      cases hMixed
    · rw [hRight] at hMixed
      cases hMixed

namespace IkSession

/-- The initiator's key and the responder's key, as `s` has them. -/
def pair (s : IkSession) (keys : TransportKeys Sym) : Key32 Sym × Key32 Sym :=
  match s.role with
  | .initiator _ => (keys.sendKey, keys.recvKey)
  | .responder => (keys.recvKey, keys.sendKey)

/-- The transport keys are made with the ephemeral key of the session. -/
theorem done_pair {s : IkSession} {r : IkResult Sym} (hDone : s.rest = .ret (some r)) (hDraws : s.Draws) :
    ∃ n point ck se, ⟨.generateKeypair, keysOf (.ephemeral n)⟩ ∈ s.past ∧
      s.pair r.keys = keyPair ck (multiply (wrap (.atom (.ephemeral n))) point) se := by
  cases hRole : s.role with
  | initiator peerStatic =>
      obtain ⟨e, msg1, state, msg2, hOpened, -, hRead⟩ := initiator_done hRole hDone
      obtain ⟨n, rfl⟩ := hDraws e hOpened.drew
      obtain ⟨re2, ee, se, hEe, -, hReply, -⟩ := ikReadMsg2_reply hRead
      obtain rfl := Option.some.inj hEe
      refine ⟨n, re2, state.ck, se, hOpened.drew, ?_⟩
      rw [pair, hRole]
      exact reply_keyPair hReply
  | responder =>
      obtain ⟨msg1, hello, e2, msg2, hReplied⟩ := responder_done hRole hDone
      obtain ⟨n, rfl⟩ := hDraws e2 hReplied.drew
      obtain ⟨ee, se, hEe, -, hReply, -⟩ := ikWriteMsg2_reply hReplied.writes
      obtain rfl := Option.some.inj hEe
      refine ⟨n, hello.re, hello.state.ck, se, hReplied.drew, ?_⟩
      rw [pair, hRole]
      exact reply_keyPair hReply

/-- No transport key is the key of an audio stream, since that is derived from
one in another way. -/
theorem keys_ne_audio {s : IkSession} {r : IkResult Sym} (hDone : s.rest = .ret (some r)) (hDraws : s.Draws)
    (transportKey : Key32 Sym) :
    r.keys.sendKey ≠ audioKeyOf transportKey ∧ r.keys.recvKey ≠ audioKeyOf transportKey := by
  obtain ⟨n, point, ck, se, -, hPair⟩ := done_pair hDone hDraws
  have hFirst : (s.pair r.keys).1 ≠ audioKeyOf transportKey := by
    rw [hPair]
    intro hEq
    cases wrap_injective hEq
  have hSecond : (s.pair r.keys).2 ≠ audioKeyOf transportKey := by
    rw [hPair]
    intro hEq
    cases wrap_injective hEq
  unfold pair at hFirst hSecond
  cases hRole : s.role with
  | initiator p =>
      rw [hRole] at hFirst hSecond
      exact ⟨hFirst, hSecond⟩
  | responder =>
      rw [hRole] at hFirst hSecond
      exact ⟨hSecond, hFirst⟩

end IkSession

/-- The keys of two audio streams differ if their transport keys do. -/
theorem audioKeyOf_injective {key key' : Key32 Sym} (h : audioKeyOf key = audioKeyOf key') : key = key' :=
  Subtype.ext (List.append_cancel_right (Sym.hash.inj (wrap_injective h)))

namespace Network

variable {honest : Set Nat} {N N' : Network}

/-- `j` is the other end of the handshake of `i`. -/
structure Partner (N : Network) (i j : Nat) (keys : TransportKeys Sym) : Prop where
  sides : (∃ p, (N.sessions i).role = .initiator p) ↔ (N.sessions j).role = .responder
  ephemerals : ∃ m n ck se, ⟨.generateKeypair, keysOf (.ephemeral m)⟩ ∈ (N.sessions i).past ∧
    ⟨.generateKeypair, keysOf (.ephemeral n)⟩ ∈ (N.sessions j).past ∧
    (N.sessions i).pair keys =
      keyPair ck (wrap (sharedOf (wrap (.atom (.ephemeral m))).val (wrap (.atom (.ephemeral n))).val)) se
  peer : ∀ r, (N.sessions j).rest = .ret (some r) → r.peerStatic = (N.sessions i).own.publicKey

/-- A session that has ended well with an honest device has a partner of that
device, whose keys are its own crosswise. -/
theorem Sound.exists_partner (hN : N.Sound honest) {i d : Nat} (hD : d ∈ honest) {r : IkResult Sym}
    (hDone : (N.sessions i).rest = .ret (some r)) (hPeer : r.peerStatic = (keysOf (.device d)).publicKey) :
    ∃ j, (N.sessions j).device = d ∧ N.Partner i j r.keys := by
  cases hRole : (N.sessions i).role with
  | initiator peerStatic =>
      obtain ⟨_, _, _, _, -, -, hRead⟩ := IkSession.initiator_done hRole hDone
      obtain ⟨_, _, _, -, -, -, hStatic⟩ := ikReadMsg2_reply hRead
      rw [← hStatic, hPeer] at hRole
      obtain ⟨j, e, msg1, hello, e2, msg2, sent, hPast, hDevice, hRe, hReplied⟩ := hN.initiator_met hD hRole hDone
      have hDrew : ⟨.generateKeypair, e⟩ ∈ (N.sessions i).past := by simp [hPast]
      obtain ⟨m, rfl⟩ := hN.draws i e hDrew
      obtain ⟨n, rfl⟩ := hN.draws j e2 hReplied.drew
      obtain ⟨ee, se, hEe, -, hReply, -⟩ := ikWriteMsg2_reply hReplied.writes
      rw [hRe] at hEe
      obtain rfl := Option.some.inj hEe
      refine ⟨j, hDevice, ⟨fun _ => hReplied.role, fun _ => ⟨_, hRole⟩⟩, ⟨m, n, hello.state.ck, se, hDrew, hReplied.drew, ?_⟩, ?_⟩
      · rw [IkSession.pair, hRole, sharedOf_comm]
        exact reply_keyPair hReply
      · intro r' hDone'
        rw [hReplied.rest] at hDone'
        cases sent with
        | true => exact congrArg IkResult.peerStatic (Option.some.inj (Prog.ret.inj hDone')).symm
        | false => cases Prog.ret.inj hDone'
  | responder =>
      obtain ⟨j, e, state, msg1, hello, e2, msg2, hDevice, hRe, hOpened, hReplied⟩ :=
        hN.responder_met hD hRole hDone hPeer
      obtain ⟨n, rfl⟩ := hN.draws j e hOpened.drew
      obtain ⟨m, rfl⟩ := hN.draws i e2 hReplied.drew
      obtain ⟨ee, se, hEe, -, hReply, -⟩ := ikWriteMsg2_reply hReplied.writes
      rw [hRe] at hEe
      obtain rfl := Option.some.inj hEe
      refine ⟨j, hDevice, ⟨?_, ?_⟩, ⟨m, n, hello.state.ck, se, hReplied.drew, hOpened.drew, ?_⟩, ?_⟩
      · rintro ⟨p, hInitiator⟩
        rw [hRole] at hInitiator
        cases hInitiator
      · intro hResponder
        rw [hOpened.role] at hResponder
        cases hResponder
      · rw [IkSession.pair, hRole]
        exact reply_keyPair hReply
      · intro r' hDone'
        obtain ⟨_, _, _, _, -, -, hRead⟩ := IkSession.initiator_done hOpened.role hDone'
        obtain ⟨_, _, _, -, -, -, hStatic⟩ := ikReadMsg2_reply hRead
        exact hStatic

/-- Two sessions that share a key for one direction are the two ends of one
handshake. -/
theorem pair_eq_of_key {s t : IkSession} {keys keys' : TransportKeys Sym} {ck ee se ck' ee' se' : Key32 Sym}
    (hS : s.pair keys = keyPair ck ee se) (hT : t.pair keys' = keyPair ck' ee' se')
    (hKey : keys'.sendKey = keys.recvKey) :
    ((∃ p, s.role = .initiator p) ↔ t.role = .responder) ∧ ee' = ee ∧ keys'.recvKey = keys.sendKey := by
  unfold IkSession.pair at hS hT
  cases hRoleS : s.role with
  | initiator p =>
      rw [hRoleS] at hS
      obtain ⟨hSend, hRecv⟩ := Prod.mk.inj hS
      cases hRoleT : t.role with
      | initiator p' =>
          rw [hRoleT] at hT
          exact absurd ((Prod.mk.inj hT).1.symm.trans (hKey.trans hRecv)) hkdf2_fst_ne_snd
      | responder =>
          rw [hRoleT] at hT
          obtain ⟨hRecv', hSend'⟩ := Prod.mk.inj hT
          obtain ⟨hEe, hPair⟩ := keyPair_snd_inj (hSend'.symm.trans (hKey.trans hRecv))
          exact ⟨⟨fun _ => rfl, fun _ => ⟨p, rfl⟩⟩, hEe, hRecv'.trans ((congrArg Prod.fst hPair).trans hSend.symm)⟩
  | responder =>
      rw [hRoleS] at hS
      obtain ⟨hRecv, hSend⟩ := Prod.mk.inj hS
      cases hRoleT : t.role with
      | initiator p' =>
          rw [hRoleT] at hT
          obtain ⟨hSend', hRecv'⟩ := Prod.mk.inj hT
          obtain ⟨hEe, hPair⟩ := keyPair_fst_inj (hSend'.symm.trans (hKey.trans hRecv))
          refine ⟨⟨?_, ?_⟩, hEe, hRecv'.trans ((congrArg Prod.snd hPair).trans hSend.symm)⟩
          · rintro ⟨p, hInitiator⟩
            cases hInitiator
          · intro hResponder
            cases hResponder
      | responder =>
          rw [hRoleT] at hT
          exact absurd (hRecv.symm.trans (hKey.symm.trans (Prod.mk.inj hT).2)) hkdf2_fst_ne_snd

/-- Only the partner encrypts under the key that a session decrypts with. -/
theorem Sound.sender_eq (hN : N.Sound honest) {i j k : Nat} {r r' : IkResult Sym}
    (hPartner : N.Partner i j r.keys) (hDone : (N.sessions k).rest = .ret (some r'))
    (hKey : r'.keys.sendKey = r.keys.recvKey) : k = j ∧ r'.keys.recvKey = r.keys.sendKey := by
  obtain ⟨m, n, ck, se, hM, hDrewN, hPair⟩ := hPartner.ephemerals
  obtain ⟨l, point, ck', se', hL, hPair'⟩ := IkSession.done_pair hDone (hN.draws k)
  obtain ⟨hSides, hEe, hOther⟩ := pair_eq_of_key hPair hPair' hKey
  refine ⟨?_, hOther⟩
  rcases multiply_eq_shared hEe with hAtom | hAtom
  · -- The ephemeral key of `i` is not that of a session on the other side.
    obtain rfl : l = m := Atom.ephemeral.inj (Sym.atom.inj (wrap_injective (Subtype.ext hAtom)))
    obtain rfl := hN.apart k i _ hL hM
    cases hRole : (N.sessions k).role with
    | initiator p => cases hRole.symm.trans (hSides.mp ⟨p, hRole⟩)
    | responder =>
        obtain ⟨p, hInitiator⟩ := hSides.mpr hRole
        cases hRole.symm.trans hInitiator
  · obtain rfl : l = n := Atom.ephemeral.inj (Sym.atom.inj (wrap_injective (Subtype.ext hAtom)))
    exact hN.apart k j _ hL hDrewN

/-- Holds of every network that can be reached, about what the sessions have
accepted. -/
structure Kept (honest : Set Nat) (N : Network) : Prop where
  idle : ∀ i, (∀ r, (N.sessions i).rest ≠ .ret (some r)) →
    (N.sessions i).records.accepted = [] ∧ (N.sessions i).records.heard = []
  frames : ∀ i, (N.sessions i).records.frames.length ≤ 2 ^ 64
  accepted : ∀ i r, (N.sessions i).rest = .ret (some r) → ¬ AllOpen (kept honest) r.keys.recvKey.val →
    ∀ n plaintext, (N.sessions i).records.accepted[n]? = some plaintext →
      n < 2 ^ 64 ∧ .sealed 0 plaintext [] (IkSession.frameNonce n) r.keys.recvKey.val ∈ N.wrote
  heard : ∀ i r, (N.sessions i).rest = .ret (some r) → ¬ AllOpen (kept honest) r.keys.recvKey.val →
    ∀ seq data, (seq, data) ∈ (N.sessions i).records.heard →
      .sealed 0 data [] (IkSession.packetNonce seq) (audioKeyOf r.keys.recvKey).val ∈ N.wrote

/-- At first no session has accepted anything. -/
theorem Starts.kept (h : N.Starts honest) : N.Kept honest where
  idle i _ := by simp [h.records]
  frames i := by simp [h.records]
  accepted i r _ _ n plaintext hAccepted := by simp [h.records] at hAccepted
  heard i r _ _ seq data hHeard := by simp [h.records] at hHeard

/-- What the attacker learns is no record of a session. -/
theorem Kept.of_sessions (hN : N.Kept honest) (h : N'.sessions = N.sessions) : N'.Kept honest := by
  obtain ⟨sessions, known, drawn⟩ := N'
  subst h
  exact ⟨hN.idle, hN.frames, hN.accepted, hN.heard⟩

/-- A session with something left to do has taken nothing from
its channels. -/
theorem Kept.answer (hN : N.Kept honest) {i : Nat} {o : IkOp Sym} {next} (h : (N.sessions i).rest = .op o next)
    (r : IkAns o) : (N.put i ((N.sessions i).answer h r)).Kept honest := by
  have hWrote := wrote_subset_put h r
  have hIdle : (N.sessions i).records.accepted = [] ∧ (N.sessions i).records.heard = [] := by
    apply hN.idle i
    intro r' hDone
    rw [h] at hDone
    cases hDone
  have hRecords : ∀ j, ((N.put i ((N.sessions i).answer h r)).sessions j).records = (N.sessions j).records := by
    intro j
    by_cases hJ : j = i
    · subst hJ
      simp [put, IkSession.answer]
    · simp [put, hJ]
  have hOthers : ∀ j ≠ i, ((N.put i ((N.sessions i).answer h r)).sessions j).rest = (N.sessions j).rest := by
    intro j hJ
    simp [put, hJ]
  constructor
  · intro j hRest
    rw [hRecords]
    by_cases hJ : j = i
    · rw [hJ]
      exact hIdle
    · exact hN.idle j fun r' => hOthers j hJ ▸ hRest r'
  · intro j
    rw [hRecords]
    exact hN.frames j
  · intro j r' hRest hKey n plaintext hAccepted
    rw [hRecords] at hAccepted
    by_cases hJ : j = i
    · rw [hJ, hIdle.1] at hAccepted
      cases hAccepted
    · obtain ⟨hLt, hMem⟩ := hN.accepted j r' (hOthers j hJ ▸ hRest) hKey n plaintext hAccepted
      exact ⟨hLt, hWrote hMem⟩
  · intro j r' hRest hKey seq data hHeard
    rw [hRecords] at hHeard
    by_cases hJ : j = i
    · rw [hJ, hIdle.2] at hHeard
      cases hHeard
    · exact hWrote (hN.heard j r' (hOthers j hJ ▸ hRest) hKey seq data hHeard)

/-- A session that has ended changes what it has recorded. -/
theorem Kept.record (hN : N.Kept honest) {i : Nat} {r : IkResult Sym} (h : (N.sessions i).rest = .ret (some r))
    {records : Records Sym} (hFrames : (N.sessions i).records.frames <+: records.frames)
    (hLength : records.frames.length ≤ 2 ^ 64) (hPackets : (N.sessions i).records.packets ⊆ records.packets)
    (hAccepted : ¬ AllOpen (Network.kept honest) r.keys.recvKey.val → ∀ n plaintext,
      records.accepted[n]? = some plaintext →
        n < 2 ^ 64 ∧ .sealed 0 plaintext [] (IkSession.frameNonce n) r.keys.recvKey.val ∈ N.wrote)
    (hHeard : ¬ AllOpen (Network.kept honest) r.keys.recvKey.val → ∀ seq data, (seq, data) ∈ records.heard →
      .sealed 0 data [] (IkSession.packetNonce seq) (audioKeyOf r.keys.recvKey).val ∈ N.wrote) :
    (N.record i records).Kept honest := by
  have hWrote := wrote_subset_record hFrames hPackets
  constructor
  · intro j hRest
    rw [record_sessions] at hRest ⊢
    by_cases hJ : j = i
    · exact absurd (hJ ▸ h) (hRest r)
    · simp only [if_neg hJ]
      exact hN.idle j hRest
  · intro j
    rw [record_sessions]
    by_cases hJ : j = i
    · simp only [if_pos hJ]
      exact hLength
    · simp only [if_neg hJ]
      exact hN.frames j
  · intro j r' hRest hKey n plaintext hMem
    rw [record_sessions] at hRest hMem
    by_cases hJ : j = i
    · simp only [if_pos hJ] at hMem
      obtain rfl : r' = r := Option.some.inj (Prog.ret.inj (hRest.symm.trans (hJ ▸ h)))
      obtain ⟨hLt, hSealed⟩ := hAccepted hKey n plaintext hMem
      exact ⟨hLt, hWrote hSealed⟩
    · simp only [if_neg hJ] at hMem
      obtain ⟨hLt, hSealed⟩ := hN.accepted j r' hRest hKey n plaintext hMem
      exact ⟨hLt, hWrote hSealed⟩
  · intro j r' hRest hKey seq data hMem
    rw [record_sessions] at hRest hMem
    by_cases hJ : j = i
    · simp only [if_pos hJ] at hMem
      obtain rfl : r' = r := Option.some.inj (Prog.ret.inj (hRest.symm.trans (hJ ▸ h)))
      exact hWrote (hHeard hKey seq data hMem)
    · simp only [if_neg hJ] at hMem
      exact hWrote (hN.heard j r' hRest hKey seq data hMem)

/-- Every step keeps what is accepted to what the partner has sent, in its
order. A forged record would need a key that nobody else has. -/
theorem Kept.step (hSound : N.Sound honest) (hN : N.Kept honest) (h : Step honest N N') : N'.Kept honest := by
  cases h with
  | draw h => exact (hN.answer h _).of_sessions rfl
  | send h sent => exact (hN.answer h sent).of_sessions rfl
  | recv h msg hMade => exact hN.answer h msg
  | @sendFrame i r h plaintext hSay hFresh =>
      have hRecord : (N.record i ((N.sessions i).records.send plaintext)).Kept honest := by
        refine hN.record h (List.prefix_append _ _) ?_ (List.Subset.refl _) (hN.accepted i r h) (hN.heard i r h)
        simp only [Records.send, List.length_append, List.length_singleton]
        omega
      exact hRecord.of_sessions rfl
  | @sendPacket i r h seq data hSay hFresh =>
      have hRecord : (N.record i ((N.sessions i).records.sendTo seq data)).Kept honest :=
        hN.record h (List.prefix_refl _) (hN.frames i) (List.subset_append_left _ _) (hN.accepted i r h)
          (hN.heard i r h)
      exact hRecord.of_sessions rfl
  | @acceptFrame i r h ciphertext plaintext hMade hFresh hOpens =>
      refine hN.record h (List.prefix_refl _) (hN.frames i) (List.Subset.refl _) ?_ (hN.heard i r h)
      intro hKey n p hMem
      rcases Nat.lt_or_ge n (N.sessions i).records.accepted.length with hOld | hNew
      · simp only [Records.accept, List.getElem?_append_left hOld] at hMem
        exact hN.accepted i r h hKey n p hMem
      · simp only [Records.accept, List.getElem?_append_right hNew] at hMem
        obtain ⟨hZero, rfl⟩ := List.getElem?_eq_some_iff.mp hMem
        rw [List.length_singleton, Nat.lt_one_iff, Nat.sub_eq_zero_iff_le] at hZero
        obtain rfl := Nat.le_antisymm hZero hNew
        simp only [List.getElem_singleton]
        exact ⟨hFresh, wrote_of_decrypt hOpens (fun x hx => derivable_knowable hSound.known (hMade x hx)) hKey⟩
  | @hearPacket i r h seq ciphertext data hMade hOpens =>
      refine hN.record h (List.prefix_refl _) (hN.frames i) (List.Subset.refl _) (hN.accepted i r h) ?_
      intro hKey seq' data' hMem
      rcases List.mem_append.mp hMem with hOld | hNew
      · exact hN.heard i r h hKey seq' data' hOld
      · obtain ⟨rfl, rfl⟩ := Prod.mk.inj (List.mem_singleton.mp hNew)
        exact wrote_of_decrypt hOpens (fun x hx => derivable_knowable hSound.known (hMade x hx)) (audioKeyOf_hidden hKey)

/-- So it is in every network that can be reached. -/
theorem Reachable.kept (hN : N.Reachable honest) : N.Kept honest := by
  induction hN with
  | start h => exact h.kept
  | step hN h ih => exact ih.step hN.sound h

/-- A ciphertext without associated data was made for a channel. -/
theorem Sound.mem_channelWrote (hN : N.Sound honest) {plaintext : List Sym} {nonce : List UInt8} {key : List Sym}
    (h : .sealed 0 plaintext [] nonce key ∈ N.wrote) :
    ∃ i, .sealed 0 plaintext [] nonce key ∈ (N.sessions i).channelWrote := by
  obtain ⟨i, ⟨data, sent, hSent, hMem⟩ | hChannel⟩ := h
  · rcases IkSession.sent_cases hSent with ⟨p, e, state, hOpened⟩ | ⟨msg1, hello, e2, result, hReplied⟩
    · obtain ⟨n, rfl⟩ := hN.draws i e hOpened.drew
      obtain ⟨es, ss, -, -, hHail⟩ := ikWriteMsg1_hail hOpened.writes
      obtain rfl := congrArg Prod.fst hHail
      exact absurd rfl (ad_ne_nil_of_mem_hail rfl hMem)
    · obtain ⟨n, rfl⟩ := hN.draws i e2 hReplied.drew
      obtain ⟨ee, se, -, -, hReply, -⟩ := ikWriteMsg2_reply hReplied.writes
      obtain rfl := congrArg Prod.fst hReply
      exact absurd rfl (ad_ne_nil_of_mem_reply rfl hMem)
  · exact ⟨i, hChannel⟩

section

variable (hN : N.Reachable honest) {i j : Nat} {r : IkResult Sym} (hDone : (N.sessions i).rest = .ret (some r))
  (hHidden : ¬ AllOpen (Network.kept honest) r.keys.recvKey.val) (hPartner : N.Partner i j r.keys)
include hN hDone hHidden hPartner

/-- An accepted frame is the partner's frame at the same place. -/
theorem Reachable.frame_accepted {n : Nat} {plaintext : List Sym}
    (h : (N.sessions i).records.accepted[n]? = some plaintext) :
    (N.sessions j).records.frames[n]? = some plaintext ∧
      ∃ r', (N.sessions j).rest = .ret (some r') ∧ r'.keys = ⟨r.keys.recvKey, r.keys.sendKey⟩ := by
  obtain ⟨hLt, hWrote⟩ := hN.kept.accepted i r hDone hHidden n plaintext h
  obtain ⟨k, r', hDone', ⟨m, plaintext', place, hFrame, hEq⟩ | ⟨seq, data, place, -, hEq⟩⟩ :=
    hN.sound.mem_channelWrote hWrote
  · obtain ⟨-, rfl, -, hNonce, hKey⟩ := Sym.sealed.inj hEq
    have hSend : r'.keys.sendKey = r.keys.recvKey := Subtype.ext hKey.symm
    obtain ⟨rfl, hRecv⟩ := hN.sound.sender_eq hPartner hDone' hSend
    have hSmall : m < 2 ^ 64 :=
      Nat.lt_of_lt_of_le (List.getElem?_eq_some_iff.mp hFrame).1 (hN.kept.frames k)
    have hSame := congrArg UInt64.toNat (nonceBytes_injective hNonce)
    rw [UInt64.toNat_ofNat', UInt64.toNat_ofNat', Nat.mod_eq_of_lt hLt, Nat.mod_eq_of_lt hSmall] at hSame
    rw [hSame]
    refine ⟨hFrame, r', hDone', ?_⟩
    rw [← hSend, ← hRecv]
  · have hKey := (Sym.sealed.inj hEq).2.2.2.2
    exact absurd (Subtype.ext hKey) (IkSession.keys_ne_audio hDone (hN.sound.draws i) _).2

/-- A packet that was heard is one of the partner's packets. -/
theorem Reachable.packet_heard {seq : UInt32} {data : List Sym} (h : (seq, data) ∈ (N.sessions i).records.heard) :
    (seq, data) ∈ (N.sessions j).records.packets ∧
      ∃ r', (N.sessions j).rest = .ret (some r') ∧ r'.keys = ⟨r.keys.recvKey, r.keys.sendKey⟩ := by
  have hWrote := hN.kept.heard i r hDone hHidden seq data h
  obtain ⟨k, r', hDone', ⟨m, plaintext', place, -, hEq⟩ | ⟨seq', data', place, hPacket, hEq⟩⟩ :=
    hN.sound.mem_channelWrote hWrote
  · have hKey := (Sym.sealed.inj hEq).2.2.2.2
    exact absurd (Subtype.ext hKey.symm) (IkSession.keys_ne_audio hDone' (hN.sound.draws k) _).1
  · obtain ⟨-, rfl, -, hNonce, hKey⟩ := Sym.sealed.inj hEq
    have hSend : r'.keys.sendKey = r.keys.recvKey := (audioKeyOf_injective (Subtype.ext hKey)).symm
    obtain ⟨rfl, hRecv⟩ := hN.sound.sender_eq hPartner hDone' hSend
    have hSeq : seq = seq' := by
      have hSame := congrArg UInt64.toNat (nonceBytes_injective hNonce)
      rw [UInt32.toNat_toUInt64, UInt32.toNat_toUInt64] at hSame
      exact UInt32.toNat.inj hSame
    subst hSeq
    refine ⟨hPacket, r', hDone', ?_⟩
    rw [← hSend, ← hRecv]

end

end Network

/-- Whatever the attacker does, a session with an honest device takes from its
secure channel the first frames that one session of that device has put in, in
the same order and each once, and from its audio channel nothing but packets
of that session. Once it has taken something, both have ended the handshake
with each other. No session of the network uses a nonce twice: none counts 2 ^
64 frames, and none sends two packets under one number. -/
theorem records_authentic {honest : Set Nat} {N : Network} (hN : N.Reachable honest) {i d : Nat} (hD : d ∈ honest)
    {r : IkResult Sym} (hDone : (N.sessions i).rest = .ret (some r))
    (hPeer : r.peerStatic = (keysOf (.device d)).publicKey) :
    ∃ j, (N.sessions j).device = d ∧
      (N.sessions i).records.accepted <+: (N.sessions j).records.frames ∧
      (N.sessions i).records.heard ⊆ (N.sessions j).records.packets ∧
      ((N.sessions i).records.accepted ≠ [] ∨ (N.sessions i).records.heard ≠ [] →
        (N.sessions j).rest = .ret (some ⟨⟨r.keys.recvKey, r.keys.sendKey⟩, (N.sessions i).own.publicKey⟩)) := by
  obtain ⟨j, hDevice, hPartner⟩ := hN.sound.exists_partner hD hDone hPeer
  have hHidden := (IkSession.keys_hidden hDone hPeer (hN.sound.kept i) (Network.kept_of_honest hD)).2
  have hEnds : (∃ r', (N.sessions j).rest = .ret (some r') ∧ r'.keys = ⟨r.keys.recvKey, r.keys.sendKey⟩) →
      (N.sessions j).rest = .ret (some ⟨⟨r.keys.recvKey, r.keys.sendKey⟩, (N.sessions i).own.publicKey⟩) := by
    rintro ⟨r', hDone', hKeys⟩
    rw [hDone', ← hKeys, ← hPartner.peer r' hDone']
  refine ⟨j, hDevice, ?_, ?_, ?_⟩
  · rw [List.prefix_iff_getElem?]
    intro n hLt
    exact (hN.frame_accepted hDone hHidden hPartner (List.getElem?_eq_getElem hLt)).1
  · rintro ⟨seq, data⟩ hHeard
    exact (hN.packet_heard hDone hHidden hPartner hHeard).1
  · rintro (hAccepted | hHeard)
    · obtain ⟨plaintext, hMem⟩ := List.exists_mem_of_ne_nil _ hAccepted
      obtain ⟨n, hAt⟩ := List.getElem?_of_mem hMem
      exact hEnds (hN.frame_accepted hDone hHidden hPartner hAt).2
    · obtain ⟨⟨seq, data⟩, hMem⟩ := List.exists_mem_of_ne_nil _ hHeard
      exact hEnds (hN.packet_heard hDone hHidden hPartner hMem).2

/-- After a handshake the responder sends a frame of one byte, and the
initiator accepts it. -/
theorem records_authentic_one_frame :
    ∃ (N : Network) (r : IkResult Sym) (j : Nat), N.Reachable {0, 1} ∧ (N.sessions 0).rest = .ret (some r) ∧
      (N.sessions 0).records.accepted = [[.byte 7]] ∧
      (N.sessions 0).records.accepted <+: (N.sessions j).records.frames := by
  obtain ⟨N, r, r', hN, -, -, hDone, hDone', hPeer, -, hKeys, hRecords⟩ :=
    (Network.Reachable.start twoDevices_starts).meet Nat.zero_ne_one rfl rfl
  have hEmpty : ∀ k, (N.sessions k).records = {} := fun k => (hRecords k).trans (twoDevices_starts.records k)
  have hSay : N.MaySay {0, 1} r' [.byte 7] := fun _ x hx => by
    obtain rfl := List.mem_singleton.mp hx
    exact fun S hClosed _ => hClosed.byte 7
  obtain ⟨M, hM, hDoneM, hAccepted⟩ :=
    hN.relay Nat.zero_ne_one hDone hDone' hKeys (by rw [hEmpty, hEmpty]) (by simp [hEmpty]) hSay
  obtain ⟨j, -, hPrefix, -, -⟩ := records_authentic hM (.inr rfl) hDoneM hPeer
  exact ⟨M, r, j, hM, hDoneM, by rw [hAccepted, hEmpty]; rfl, hPrefix⟩

end NoCapKVM.Discovery
