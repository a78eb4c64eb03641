import NoCapKVM.Discovery.NoiseIkSessions

/-! Who a handshake that ended well was with, whatever the attacker sent. -/
namespace NoCapKVM.Discovery

open Thread NoCapKVM.Discovery.Sym

namespace IkSession

variable {s : IkSession} {hidden : Set Atom} {wrote : Set Sym}

/-- Every ephemeral key of the session is one that was drawn. -/
def Draws (s : IkSession) : Prop := ∀ e, ⟨.generateKeypair, e⟩ ∈ s.past → ∃ n, e = keysOf (.ephemeral n)

/-- Public keys are known to everybody. -/
theorem keysOf_knowable (a : Atom) : AllWithin (knowable hidden wrote) (keysOf a).publicKey.val :=
  within_wrap ⟨trivial, trivial⟩

/-- A session that has sent a first message has drawn the
ephemeral key in it. -/
theorem Opened.drew {peerStatic : Key32 Sym} {e : Keypair Sym} {msg1 : List Sym} {state : SymmetricState Sym}
    (h : s.Opened peerStatic e msg1 state) : ⟨.generateKeypair, e⟩ ∈ s.past := by
  obtain ⟨sent, later, hPast⟩ := h.past
  rw [hPast]
  exact List.mem_cons_self ..

/-- One that has sent a second message has drawn the key in that. -/
theorem Replied.drew {msg1 : Bytes Sym kMsg1Size} {hello : IkHello Sym} {e2 : Keypair Sym} {msg2 : List Sym}
    {result : IkResult Sym} {sent : Bool} (h : s.Replied msg1 hello e2 msg2 result sent) :
    ⟨.generateKeypair, e2⟩ ∈ s.past := by
  rw [h.past]
  simp

/-- It answers a first message that it has read. -/
theorem Replied.heard {msg1 : Bytes Sym kMsg1Size} {hello : IkHello Sym} {e2 : Keypair Sym} {msg2 : List Sym}
    {result : IkResult Sym} {sent : Bool} (h : s.Replied msg1 hello e2 msg2 result sent) :
    ⟨.recvAll kMsg1Size, some msg1⟩ ∈ s.past := by
  rw [h.past]
  exact List.mem_cons_self ..

/-- What a session says in a handshake tells nobody anything. -/
theorem sent_knowable (hDraws : s.Draws) {data : List Sym} {sent : Bool} (h : ⟨.sendAll data, sent⟩ ∈ s.past)
    (hWrote : AllWithin wrote data) : AllWithin (knowable hidden wrote) data := by
  rcases sent_cases h with ⟨peerStatic, e, state, hOpened⟩ | ⟨msg1, hello, e2, result, hReplied⟩
  · obtain ⟨n, rfl⟩ := hDraws e hOpened.drew
    obtain ⟨es, ss, -, -, hHail⟩ := ikWriteMsg1_hail hOpened.writes
    obtain rfl := congrArg Prod.fst hHail
    exact hail_knowable (keysOf_knowable _) (keysOf_knowable _) hWrote
  · obtain ⟨n, rfl⟩ := hDraws e2 hReplied.drew
    obtain ⟨ee, se, -, -, hReply, -⟩ := ikWriteMsg2_reply hReplied.writes
    obtain rfl := congrArg Prod.fst hReply
    exact reply_knowable (keysOf_knowable _) hWrote

/-- A message starts with an ephemeral key of its session. -/
theorem sent_key (hDraws : s.Draws) {data : List Sym} {sent : Bool} (h : ⟨.sendAll data, sent⟩ ∈ s.past) :
    ∃ n, ⟨.generateKeypair, keysOf (.ephemeral n)⟩ ∈ s.past ∧
      data.take 32 = (keysOf (.ephemeral n)).publicKey.val := by
  rcases sent_cases h with ⟨peerStatic, e, state, hOpened⟩ | ⟨msg1, hello, e2, result, hReplied⟩
  · obtain ⟨n, rfl⟩ := hDraws e hOpened.drew
    obtain ⟨es, ss, -, -, hHail⟩ := ikWriteMsg1_hail hOpened.writes
    obtain rfl := congrArg Prod.fst hHail
    exact ⟨n, hOpened.drew, hail_take⟩
  · obtain ⟨n, rfl⟩ := hDraws e2 hReplied.drew
    obtain ⟨ee, se, -, -, hReply, -⟩ := ikWriteMsg2_reply hReplied.writes
    obtain rfl := congrArg Prod.fst hReply
    exact ⟨n, hReplied.drew, reply_take⟩

/-- The secret that two hidden keys share is hidden, because it contains the
private half of one of them. -/
theorem dh_hidden {a b : Atom} (hA : a ∈ hidden) (hB : b ∈ hidden) {secret : Key32 Sym}
    (h : dh symSodium (keysOf a).privateKey (keysOf b).publicKey = some secret) : ¬ AllOpen hidden secret.val := by
  obtain rfl := Option.some.inj h
  intro hOpen
  have hShared : Open hidden (sharedOf (wrap (.atom a)).val (wrap (.atom b)).val) := allOpen_wrap.mp hOpen
  rcases sharedOf_cases (wrap (.atom a)).val (wrap (.atom b)).val with hEq | hEq
  · rw [hEq] at hShared
    rcases hShared with hKey | hKey
    · exact (allOpen_wrap.mp hKey) hA
    · exact (allOpen_wrap.mp hKey) hB
  · rw [hEq] at hShared
    rcases hShared with hKey | hKey
    · exact (allOpen_wrap.mp hKey) hB
    · exact (allOpen_wrap.mp hKey) hA

/-- The transport keys come from a secret that the two static keys share. -/
theorem keys_hidden {r : IkResult Sym} (hDone : s.rest = .ret (some r)) {b : Atom}
    (hPeer : r.peerStatic = (keysOf b).publicKey) (hOwn : .device s.device ∈ hidden) (hB : b ∈ hidden) :
    ¬ AllOpen hidden r.keys.sendKey.val ∧ ¬ AllOpen hidden r.keys.recvKey.val := by
  cases hRole : s.role with
  | initiator peerStatic =>
      obtain ⟨e, msg1, state, msg2, hOpened, -, hRead⟩ := initiator_done hRole hDone
      obtain ⟨es, ss, -, hSs, hHail⟩ := ikWriteMsg1_hail hOpened.writes
      obtain ⟨re2, ee, se, -, -, hReply, hStatic⟩ := ikReadMsg2_reply hRead
      rw [← hStatic, hPeer] at hSs
      exact reply_hidden hReply (.inr (hail_hidden hHail (dh_hidden hOwn hB hSs)))
  | responder =>
      obtain ⟨msg1, hello, e2, msg2, hReplied⟩ := responder_done hRole hDone
      obtain ⟨es, ss, -, hSs, hHail⟩ := ikReadMsg1_hail hReplied.reads
      obtain ⟨ee, se, -, -, hReply, hStatic⟩ := ikWriteMsg2_reply hReplied.writes
      rw [← hStatic, hPeer] at hSs
      exact (reply_hidden hReply (.inr (hail_hidden hHail (dh_hidden hOwn hB hSs)))).symm

end IkSession

namespace Network

variable {honest : Set Nat} {N N' : Network}

/-- In a sound network no session uses an ephemeral key that it has not
drawn itself. -/
theorem Sound.draws (hN : N.Sound honest) (i : Nat) : (N.sessions i).Draws := by
  intro e hE
  obtain ⟨n, -, hEq⟩ := hN.drawn i e hE
  exact ⟨n, hEq⟩

/-- The static key of an honest device is one of those that
nobody gives away. -/
theorem Sound.kept (hN : N.Sound honest) (i : Nat) : .device (N.sessions i).device ∈ kept honest := by
  intro d hD hEq
  obtain rfl := Atom.device.inj hEq
  exact hD (hN.device i)

theorem kept_of_honest {d : Nat} (h : d ∈ honest) : .device d ∈ kept honest := by
  intro d' hD hEq
  obtain rfl := Atom.device.inj hEq
  exact hD h

/-- At first nobody has written anything, and the attacker knows only
public keys. -/
theorem Starts.sound (h : N.Starts honest) : N.Sound honest where
  device := h.device
  drawn i e hE := by
    rw [h.past] at hE
    cases hE
  apart i j e hE := by
    rw [h.past] at hE
    cases hE
  known := by
    rw [h.known]
    rintro x ⟨d, hD, rfl⟩
    exact ⟨fun hKept => hKept d hD rfl, trivial⟩
  read i len bytes hRead := by
    rw [h.past] at hRead
    cases hRead

/-- A step of a session does not change whose session it is. -/
theorem put_device {i : Nat} {o : IkOp Sym} {next} (h : (N.sessions i).rest = .op o next) (r : IkAns o) (j : Nat) :
    ((N.put i ((N.sessions i).answer h r)).sessions j).device = (N.sessions j).device := by
  by_cases hJ : j = i
  · subst hJ
    simp [put, IkSession.answer]
  · simp [put, Function.update_of_ne hJ]

/-- The more has been written, the more can be known. -/
theorem knowable_mono {hidden : Set Atom} {wrote wrote' : Set Sym} (h : wrote ⊆ wrote') :
    knowable hidden wrote ⊆ knowable hidden wrote' :=
  fun _ hx => ⟨hx.1, hx.2.mono h⟩

/-- One session goes on. The answer is a new key, or something the attacker
can make. -/
theorem Sound.answer (hN : N.Sound honest) {i : Nat} {o : IkOp Sym} {next} (h : (N.sessions i).rest = .op o next)
    {r : IkAns o} {drawn : Nat} (hLe : N.drawn ≤ drawn)
    (hDraw : ∀ e, (⟨.generateKeypair, e⟩ : IkEvent) = ⟨o, r⟩ → e = keysOf (.ephemeral N.drawn) ∧ N.drawn < drawn)
    (hRead : ∀ len bytes, (⟨.recvAll len, some bytes⟩ : IkEvent) = ⟨o, r⟩ →
      AllWithin (knowable (Network.kept honest) N.wrote) bytes.val) :
    Sound honest { N.put i ((N.sessions i).answer h r) with drawn := drawn } where
  device j := (put_device h r j).symm ▸ hN.device j
  drawn j e hE := by
    rcases mem_put_past h hE with hOld | ⟨-, hNew⟩
    · obtain ⟨n, hLt, hEq⟩ := hN.drawn j e hOld
      exact ⟨n, Nat.lt_of_lt_of_le hLt hLe, hEq⟩
    · obtain ⟨hEq, hLt⟩ := hDraw e hNew
      exact ⟨N.drawn, hLt, hEq⟩
  apart := by
    -- A key that is drawn now was not drawn before.
    have hFresh : ∀ j e, ⟨.generateKeypair, e⟩ ∈ (N.sessions j).past → e ≠ keysOf (.ephemeral N.drawn) := by
      intro j e hE hNew
      obtain ⟨n, hLt, hEq⟩ := hN.drawn j e hE
      rw [hNew] at hEq
      have hSame := Atom.ephemeral.inj (keysOf_injective (congrArg Keypair.publicKey hEq))
      omega
    intro j k e hJ hK
    rcases mem_put_past h hJ with hOldJ | ⟨rfl, hNewJ⟩
    · rcases mem_put_past h hK with hOldK | ⟨-, hNewK⟩
      · exact hN.apart j k e hOldJ hOldK
      · exact absurd (hDraw e hNewK).1 (hFresh j e hOldJ)
    · rcases mem_put_past h hK with hOldK | ⟨rfl, -⟩
      · exact absurd (hDraw e hNewJ).1 (hFresh k e hOldK)
      · rfl
  known := hN.known.trans (knowable_mono (wrote_subset_put h r))
  read j len bytes hMem := by
    intro x hx
    apply knowable_mono (wrote_subset_put h r)
    rcases mem_put_past h hMem with hOld | ⟨-, hNew⟩
    · exact hN.read j len bytes hOld x hx
    · exact hRead len bytes hNew x hx

/-- Whatever the attacker learns from what can be known leaves the
network sound. -/
theorem Sound.hears (hN : N.Sound honest) {data : List Sym}
    (hData : AllWithin (knowable (Network.kept honest) N.wrote) data) : (N.hears data).Sound honest where
  device := hN.device
  drawn := hN.drawn
  apart := hN.apart
  known := Set.union_subset hN.known hData
  read := hN.read

/-- Records under the keys of a session that has ended are among what is
written, so they leave the network sound as well. -/
theorem Sound.record (hN : N.Sound honest) {i : Nat} {records : Records Sym}
    (hFrames : (N.sessions i).records.frames <+: records.frames)
    (hPackets : (N.sessions i).records.packets ⊆ records.packets) : (N.record i records).Sound honest where
  device j := by
    rw [record_sessions]
    exact hN.device j
  drawn j e hE := by
    rw [record_sessions] at hE
    exact hN.drawn j e hE
  apart j k e hJ hK := by
    rw [record_sessions] at hJ hK
    exact hN.apart j k e hJ hK
  known := hN.known.trans (knowable_mono (wrote_subset_record hFrames hPackets))
  read j len bytes hMem := by
    rw [record_sessions] at hMem
    exact fun x hx => knowable_mono (wrote_subset_record hFrames hPackets) (hN.read j len bytes hMem x hx)

/-- An answer that a session has just got is in its past. -/
theorem mem_answer {i : Nat} {o : IkOp Sym} {next} (h : (N.sessions i).rest = .op o next) (r : IkAns o) :
    ⟨o, r⟩ ∈ ((N.put i ((N.sessions i).answer h r)).sessions i).past := by
  simp [put, IkSession.answer]

/-- The key of the audio stream is as hidden as the transport key that it is
derived from. -/
theorem audioKeyOf_hidden {hidden : Set Atom} {transportKey : Key32 Sym} (h : ¬ AllOpen hidden transportKey.val) :
    ¬ AllOpen hidden (audioKeyOf transportKey).val :=
  fun hOpen => h (allOpen_append.mp (allOpen_wrap.mp hOpen)).1

/-- What is said to the peer may be known, unless the key that
protects it is not. -/
theorem MaySay.knowable {hidden : Set Atom} {wrote : Set Sym} {r : IkResult Sym} {plaintext : List Sym}
    (h : N.MaySay honest r plaintext) (hKnown : N.known ⊆ Sym.knowable hidden wrote)
    (hKey : ∀ d ∈ honest, r.peerStatic = (keysOf (.device d)).publicKey → ¬ AllOpen hidden r.keys.sendKey.val)
    (hOpen : AllOpen hidden r.keys.sendKey.val) : AllWithin (Sym.knowable hidden wrote) plaintext :=
  fun x hx => derivable_knowable hKnown (h (fun d hD hPeer => hKey d hD hPeer hOpen) x hx)

/-- A frame or a packet that is on the network may be known. -/
theorem channel_knowable {hidden : Set Atom} {wrote : Set Sym} {key : Key32 Sym} {nonce : UInt64}
    {plaintext : List Sym} (hWrote : ∀ place, .sealed place plaintext [] (nonceBytes nonce) key.val ∈ wrote)
    (h : AllOpen hidden key.val → AllWithin (Sym.knowable hidden wrote) plaintext) :
    AllWithin (Sym.knowable hidden wrote) (aeadEncrypt symSodium key nonce [] plaintext) := by
  apply encrypt_knowable h
  intro x hx
  obtain ⟨place, -, rfl⟩ := List.mem_map.mp hx
  exact hWrote place

/-- A frame that is sent is among what has been written, under its nonce and
the key of its direction. -/
theorem mem_wrote_frame {i : Nat} {r : IkResult Sym} (h : (N.sessions i).rest = .ret (some r)) (plaintext : List Sym)
    (place : Nat) :
    .sealed place plaintext [] (nonceBytes (UInt64.ofNat (N.sessions i).records.frames.length)) r.keys.sendKey.val ∈
      (N.record i ((N.sessions i).records.send plaintext)).wrote := by
  refine ⟨i, .inr ?_⟩
  rw [record_sessions]
  exact ⟨r, h, .inl ⟨_, plaintext, place, by simp [Records.send], rfl⟩⟩

/-- So is a packet of the audio stream. -/
theorem mem_wrote_packet {i : Nat} {r : IkResult Sym} (h : (N.sessions i).rest = .ret (some r)) (seq : UInt32)
    (data : List Sym) (place : Nat) :
    .sealed place data [] (nonceBytes seq.toUInt64) (audioKeyOf r.keys.sendKey).val ∈
      (N.record i ((N.sessions i).records.sendTo seq data)).wrote := by
  refine ⟨i, .inr ?_⟩
  rw [record_sessions]
  exact ⟨r, h, .inr ⟨seq, data, place, by simp [Records.sendTo], rfl⟩⟩

/-- Every step keeps the network sound, of an honest device or of the
attacker. -/
theorem Sound.step (hN : N.Sound honest) (h : Step honest N N') : N'.Sound honest := by
  cases h with
  | draw h =>
      refine hN.answer h (Nat.le_succ _) ?_ ?_
      · intro e hE
        cases hE
        exact ⟨rfl, Nat.lt_succ_self _⟩
      · intro len bytes hMem
        cases hMem
  | @send i data next h sent =>
      have hPut : (N.put i ((N.sessions i).answer h sent)).Sound honest := by
        refine hN.answer h (le_refl N.drawn) ?_ ?_
        · intro e hE
          cases hE
        · intro len bytes hMem
          cases hMem
      have hSent := mem_answer h sent
      exact hPut.hears (IkSession.sent_knowable (hPut.draws i) hSent fun x hx => ⟨i, .inl ⟨data, sent, hSent, hx⟩⟩)
  | recv h msg hMade =>
      refine hN.answer h (le_refl N.drawn) ?_ ?_
      · intro e hE
        cases hE
      · intro len bytes hMem x hx
        cases hMem
        exact derivable_knowable hN.known (hMade bytes rfl x hx)
  | @sendFrame i r h plaintext hSay hFresh =>
      have hRecord : (N.record i ((N.sessions i).records.send plaintext)).Sound honest :=
        hN.record (List.prefix_append _ _) (List.Subset.refl _)
      refine hRecord.hears (channel_knowable (mem_wrote_frame h plaintext) ?_)
      exact hSay.knowable hRecord.known fun d hD hPeer => (IkSession.keys_hidden h hPeer (hN.kept i) (kept_of_honest hD)).1
  | @sendPacket i r h seq data hSay hFresh =>
      have hRecord : (N.record i ((N.sessions i).records.sendTo seq data)).Sound honest :=
        hN.record (List.prefix_refl _) (List.subset_append_left _ _)
      refine hRecord.hears (channel_knowable (mem_wrote_packet h seq data) fun hOpen => ?_)
      refine hSay.knowable hRecord.known (fun d hD hPeer =>
        (IkSession.keys_hidden h hPeer (hN.kept i) (kept_of_honest hD)).1) ?_
      by_contra hHidden
      exact audioKeyOf_hidden hHidden hOpen
  | acceptFrame h hMade hFresh hOpens => exact hN.record (List.prefix_refl _) (List.Subset.refl _)
  | hearPacket h seq hMade hOpens => exact hN.record (List.prefix_refl _) (List.Subset.refl _)

/-- So every network that can be reached is sound. -/
theorem Reachable.sound (hN : N.Reachable honest) : N.Sound honest := by
  induction hN with
  | start h => exact h.sound
  | step _ h ih => exact ih.step h

/-- A message of a handshake is sent by one session only. -/
theorem Sound.sent_once (hN : N.Sound honest) {i j : Nat} {data : List Sym} {sent sent' : Bool}
    (hI : ⟨.sendAll data, sent⟩ ∈ (N.sessions i).past) (hJ : ⟨.sendAll data, sent'⟩ ∈ (N.sessions j).past) : i = j := by
  obtain ⟨n, hDrewI, hPrefixI⟩ := IkSession.sent_key (hN.draws i) hI
  obtain ⟨n', hDrewJ, hPrefixJ⟩ := IkSession.sent_key (hN.draws j) hJ
  have hKey : (keysOf (.ephemeral n)).publicKey = (keysOf (.ephemeral n')).publicKey :=
    Subtype.ext (hPrefixI.symm.trans hPrefixJ)
  rw [keysOf_injective hKey] at hDrewI
  exact hN.apart i j _ hDrewI hDrewJ

/-- An empty plaintext that was encrypted under a key that is not known, for a
transcript, was encrypted in a handshake. -/
theorem Sound.tag_sent (hN : N.Sound honest) {i len : Nat} {bytes : Bytes Sym len}
    (hRead : ⟨.recvAll len, some bytes⟩ ∈ (N.sessions i).past) {ad : Key32 Sym} {nonce : List UInt8} {key : List Sym}
    (hMem : .sealed 0 [] ad.val nonce key ∈ bytes.val) (hKey : ¬ AllOpen (Network.kept honest) key) :
    ∃ j data sent, ⟨.sendAll data, sent⟩ ∈ (N.sessions j).past ∧ .sealed 0 [] ad.val nonce key ∈ data := by
  rcases (hN.read i len bytes hRead _ hMem).2.2.resolve_left hKey with ⟨j, ⟨data, sent, hSent, hData⟩ | ⟨r, -, hChannel⟩⟩
  · exact ⟨j, data, sent, hSent, hData⟩
  · rcases hChannel with ⟨_, _, _, -, hEq⟩ | ⟨_, _, _, -, hEq⟩
    · exact absurd (Sym.sealed.inj hEq).2.2.1 (key32_ne_nil ad)
    · exact absurd (Sym.sealed.inj hEq).2.2.1 (key32_ne_nil ad)

/-- An initiator that has ended well has read its second message from a
session of the device that it wanted to reach. Only that device could have
made the tag in it. -/
theorem Sound.initiator_met (hN : N.Sound honest) {i b : Nat} (hB : b ∈ honest)
    (hRole : (N.sessions i).role = .initiator (keysOf (.device b)).publicKey) {r : IkResult Sym}
    (hDone : (N.sessions i).rest = .ret (some r)) :
    ∃ (j : Nat) (e : Keypair Sym) (msg1 : Bytes Sym kMsg1Size) (hello : IkHello Sym) (e2 : Keypair Sym)
      (msg2 : Bytes Sym kMsg2Size) (sent : Bool),
      (N.sessions i).past = [⟨.generateKeypair, e⟩, ⟨.sendAll msg1.val, true⟩, ⟨.recvAll kMsg2Size, some msg2⟩] ∧
      (N.sessions j).device = b ∧ hello.re = e.publicKey ∧
      (N.sessions j).Replied msg1 hello e2 msg2.val
        ⟨⟨r.keys.recvKey, r.keys.sendKey⟩, (N.sessions i).own.publicKey⟩ sent := by
  obtain ⟨e, msg1, state, msg2, hOpened, hPast, hRead⟩ := IkSession.initiator_done hRole hDone
  obtain ⟨es, ss, -, hSs, hHail⟩ := ikWriteMsg1_hail hOpened.writes
  obtain ⟨re2, ee, se, hEe, hSe, hReply, hStatic⟩ := ikReadMsg2_reply hRead
  have hCk := hail_hidden hHail (IkSession.dh_hidden (hN.kept i) (kept_of_honest hB) hSs)
  have hMsg2 : (reply state re2 ee se).1 = msg2.val := congrArg Prod.fst hReply
  have hHeard : ⟨.recvAll kMsg2Size, some msg2⟩ ∈ (N.sessions i).past := by
    rw [hPast]
    simp
  have hTag := hMsg2 ▸ tag_mem_reply
  obtain ⟨j, data, sent, hSent, hData⟩ := hN.tag_sent hHeard hTag (replyKeyed_hidden (.inr hCk)).2
  rcases IkSession.sent_cases hSent with ⟨p', e', state', hOther⟩ | ⟨msg1', hello, e2, result, hReplied⟩
  · obtain ⟨n, rfl⟩ := hN.draws j e' hOther.drew
    obtain ⟨es', ss', -, -, hHail'⟩ := ikWriteMsg1_hail hOther.writes
    obtain rfl := congrArg Prod.fst hHail'
    exact absurd (Subtype.ext (sealed_mem_hail rfl hData).1).symm hailStatic_ne_reply
  · obtain ⟨n, rfl⟩ := hN.draws j e2 hReplied.drew
    obtain ⟨n', rfl⟩ := hN.draws i e hOpened.drew
    obtain ⟨ee', se', -, -, hReply', hPeer⟩ := ikWriteMsg2_reply hReplied.writes
    obtain rfl := congrArg Prod.fst hReply'
    obtain ⟨hAd, -, hKey⟩ := sealed_mem_reply rfl hData
    obtain ⟨hState, hRe2⟩ := mixHash_injective symSodium_symbolic (Subtype.ext hAd)
    obtain rfl : re2 = (keysOf (.ephemeral n)).publicKey := Subtype.ext hRe2
    obtain ⟨hDevice, rfl, rfl⟩ := ikMsg1_match hOpened.writes hReplied.reads hState rfl rfl rfl
    have hSame : msg2.val = (reply state (keysOf (.ephemeral n)).publicKey ee' se').1 :=
      hMsg2.symm.trans (reply_fst_congr (Subtype.ext hKey))
    have hLen := ikWriteMsg2_length symSodium_symbolic.toAeadContract hReplied.writes
    obtain rfl : msg2 = ⟨_, hLen⟩ := Subtype.ext hSame
    rw [ikReadMsg2_ikWriteMsg2 symSodium_symbolic.toContract (keysOf_genuine _) (keysOf_genuine _) (keysOf_genuine _)
      hReplied.writes hLen] at hRead
    obtain rfl := Option.some.inj hRead
    have hResult : result = ⟨⟨result.keys.sendKey, result.keys.recvKey⟩, (N.sessions i).own.publicKey⟩ :=
      congrArg (IkResult.mk result.keys) hPeer
    have hB := Atom.device.inj (keysOf_injective hDevice)
    exact ⟨j, _, msg1', _, _, _, sent, hPast, hB.symm, rfl, hResult ▸ hReplied⟩

/-- A responder that has ended well with an honest device has read its first
message from a session of that device, for the same reason. -/
theorem Sound.responder_met (hN : N.Sound honest) {j a : Nat} (hA : a ∈ honest)
    (hRole : (N.sessions j).role = .responder) {r : IkResult Sym} (hDone : (N.sessions j).rest = .ret (some r))
    (hPeer : r.peerStatic = (keysOf (.device a)).publicKey) :
    ∃ (i : Nat) (e : Keypair Sym) (state : SymmetricState Sym) (msg1 : Bytes Sym kMsg1Size) (hello : IkHello Sym)
      (e2 : Keypair Sym) (msg2 : List Sym),
      (N.sessions i).device = a ∧ hello.re = e.publicKey ∧
      (N.sessions i).Opened (N.sessions j).own.publicKey e msg1.val state ∧
      (N.sessions j).Replied msg1 hello e2 msg2 r true := by
  obtain ⟨msg1, hello, e2, msg2, hReplied⟩ := IkSession.responder_done hRole hDone
  obtain ⟨es, ss, -, hSs, hHail⟩ := ikReadMsg1_hail hReplied.reads
  obtain ⟨ee, se, -, -, -, hStatic⟩ := ikWriteMsg2_reply hReplied.writes
  rw [hStatic] at hPeer
  rw [hPeer] at hSs
  have hSecret := IkSession.dh_hidden (hN.kept j) (kept_of_honest hA) hSs
  have hMsg1 : (hail (N.sessions j).own.publicKey hello.re hello.rsInitiator es ss).1 = msg1.val :=
    congrArg Prod.fst hHail
  obtain ⟨i, data, sent, hSent, hData⟩ :=
    hN.tag_sent hReplied.heard (hMsg1 ▸ tag_mem_hail) (mixKey_hidden (.inl hSecret)).2
  rcases IkSession.sent_cases hSent with ⟨p, e, state, hOpened⟩ | ⟨msg1', hello', e2', result, hOther⟩
  · obtain ⟨n, rfl⟩ := hN.draws i e hOpened.drew
    obtain ⟨es', ss', -, -, hHail'⟩ := ikWriteMsg1_hail hOpened.writes
    obtain rfl := congrArg Prod.fst hHail'
    obtain ⟨hAd, -, hKey⟩ := sealed_mem_hail (e := (keysOf (.ephemeral n)).publicKey) rfl hData
    obtain ⟨hP, hRe, hRs, hFirst⟩ := hailStatic_inj (Subtype.ext hAd)
    have hDevice := Atom.device.inj (keysOf_injective (hRs.symm.trans hPeer))
    subst hP
    have hSame : (hail (N.sessions j).own.publicKey hello.re hello.rsInitiator es ss).1 =
        (hail (N.sessions j).own.publicKey (keysOf (.ephemeral n)).publicKey (N.sessions i).own.publicKey es' ss').1 := by
      rw [hRe, hRs] at hFirst hAd hKey ⊢
      apply hail_fst_congr hFirst
      rw [hailPayload_fst, hailPayload_fst, hAd, Subtype.ext hKey]
    rw [← hSame, hMsg1] at hOpened
    exact ⟨i, _, state, msg1, hello, e2, msg2, hDevice, hRe, hOpened, hReplied⟩
  · obtain ⟨n, rfl⟩ := hN.draws i e2' hOther.drew
    obtain ⟨ee', se', -, -, hReply', -⟩ := ikWriteMsg2_reply hOther.writes
    obtain rfl := congrArg Prod.fst hReply'
    exact absurd (Subtype.ext (sealed_mem_reply rfl hData).1) hailStatic_ne_reply

end Network

namespace IkSession

/-- Each has read what the other one sent, and `s'` has the keys of `s`
crosswise unless its socket did not take its message. -/
def Met (s s' : IkSession) (keys : TransportKeys Sym) : Prop :=
  ∃ (e e2 : Keypair Sym) (msg1 : Bytes Sym kMsg1Size) (msg2 : Bytes Sym kMsg2Size) (sent : Bool),
    s.past = [⟨.generateKeypair, e⟩, ⟨.sendAll msg1.val, true⟩, ⟨.recvAll kMsg2Size, some msg2⟩] ∧
    s'.past = [⟨.recvAll kMsg1Size, some msg1⟩, ⟨.generateKeypair, e2⟩, ⟨.sendAll msg2.val, sent⟩] ∧
    s'.rest = .ret (if sent then some ⟨⟨keys.recvKey, keys.sendKey⟩, s.own.publicKey⟩ else none)

/-- `s'` has read what `s` sent. -/
def Hailed (s s' : IkSession) : Prop :=
  ∃ (msg1 : Bytes Sym kMsg1Size) (sent : Bool),
    ⟨.sendAll msg1.val, sent⟩ ∈ s.past ∧ s'.past.head? = some ⟨.recvAll kMsg1Size, some msg1⟩

end IkSession

/-- A handshake that ends well for the initiator was with the device whose key
it has stored. That device ran it for nobody else, and no other one did. -/
theorem initiator_met_once {honest : Set Nat} {N : Network} (hN : N.Reachable honest) {i b : Nat}
    (hB : b ∈ honest) (hRole : (N.sessions i).role = .initiator (keysOf (.device b)).publicKey) {r : IkResult Sym}
    (hDone : (N.sessions i).rest = .ret (some r)) :
    ∃ j, (N.sessions j).device = b ∧ (N.sessions j).role = .responder ∧
      (N.sessions i).Met (N.sessions j) r.keys ∧
      (∀ i' keys, (N.sessions i').Met (N.sessions j) keys → i' = i) ∧
      ∀ j' keys, (N.sessions i).Met (N.sessions j') keys → j' = j := by
  obtain ⟨j, e, msg1, hello, e2, msg2, sent, hPast, hDevice, -, hReplied⟩ := hN.sound.initiator_met hB hRole hDone
  refine ⟨j, hDevice, hReplied.role, ⟨e, e2, msg1, msg2, sent, hPast, hReplied.past, hReplied.rest⟩, ?_, ?_⟩
  · rintro i' keys ⟨e', e2', msg1', msg2', sent', hPast', hPastJ, -⟩
    obtain rfl : msg1 = msg1' := by
      have hHead := congrArg List.head? (hReplied.past.symm.trans hPastJ)
      simpa using hHead
    have hOther : ⟨.sendAll msg1.val, true⟩ ∈ (N.sessions i').past := by simp [hPast']
    have hSent : ⟨.sendAll msg1.val, true⟩ ∈ (N.sessions i).past := by simp [hPast]
    exact hN.sound.sent_once hOther hSent
  · rintro j' keys ⟨e', e2', msg1', msg2', sent', hPastI, hPast', -⟩
    obtain rfl : msg2 = msg2' := by
      have hLast := congrArg List.getLast? (hPast.symm.trans hPastI)
      simpa using hLast
    have hOther : ⟨.sendAll msg2.val, sent'⟩ ∈ (N.sessions j').past := by simp [hPast']
    have hSent : ⟨.sendAll msg2.val, sent⟩ ∈ (N.sessions j).past := by simp [hReplied.past]
    exact hN.sound.sent_once hOther hSent

/-- Devices 0 and 1 run a handshake that nobody disturbs, and the initiator
has met the responder. -/
theorem initiator_met_once_left_alone :
    ∃ (N : Network) (r : IkResult Sym) (j : Nat), N.Reachable {0, 1} ∧ (N.sessions 0).rest = .ret (some r) ∧
      (N.sessions j).device = 1 ∧ (N.sessions 0).Met (N.sessions j) r.keys := by
  obtain ⟨N, r, r', hN, hRole, -, hDone, -⟩ :=
    (Network.Reachable.start twoDevices_starts).meet Nat.zero_ne_one rfl rfl
  obtain ⟨j, hDevice, -, hMet, -, -⟩ := initiator_met_once hN (.inr rfl) hRole hDone
  exact ⟨N, r, j, hN, hDone, hDevice, hMet⟩

/-- A handshake that ends well for the responder was begun by the
device whose key it got, and for this responder. The message may have
been sent long ago. -/
theorem responder_hailed_once {honest : Set Nat} {N : Network} (hN : N.Reachable honest) {j a : Nat}
    (hA : a ∈ honest) (hRole : (N.sessions j).role = .responder) {r : IkResult Sym}
    (hDone : (N.sessions j).rest = .ret (some r)) (hPeer : r.peerStatic = (keysOf (.device a)).publicKey) :
    ∃ i, (N.sessions i).device = a ∧ (N.sessions i).role = .initiator (N.sessions j).own.publicKey ∧
      (N.sessions i).Hailed (N.sessions j) ∧ ∀ i', (N.sessions i').Hailed (N.sessions j) → i' = i := by
  obtain ⟨i, e, state, msg1, hello, e2, msg2, hDevice, -, hOpened, hReplied⟩ :=
    hN.sound.responder_met hA hRole hDone hPeer
  obtain ⟨sent, later, hPast⟩ := hOpened.past
  have hSent : ⟨.sendAll msg1.val, sent⟩ ∈ (N.sessions i).past := by simp [hPast]
  refine ⟨i, hDevice, hOpened.role, ⟨msg1, sent, hSent, by simp [hReplied.past]⟩, ?_⟩
  rintro i' ⟨msg1', sent', hSent', hHead⟩
  obtain rfl : msg1 = msg1' := by simpa [hReplied.past] using hHead
  exact hN.sound.sent_once hSent' hSent

/-- In that handshake the responder was hailed by the initiator. -/
theorem responder_hailed_once_left_alone :
    ∃ (N : Network) (r : IkResult Sym) (i : Nat), N.Reachable {0, 1} ∧ (N.sessions 1).rest = .ret (some r) ∧
      (N.sessions i).device = 0 ∧ (N.sessions i).Hailed (N.sessions 1) := by
  obtain ⟨N, r, r', hN, -, hRole, -, hDone, -, hPeer, -⟩ :=
    (Network.Reachable.start twoDevices_starts).meet Nat.zero_ne_one rfl rfl
  obtain ⟨i, hDevice, -, hHailed, -⟩ := responder_hailed_once hN (.inl rfl) hRole hDone hPeer
  exact ⟨N, r', i, hN, hDone, hDevice, hHailed⟩

end NoCapKVM.Discovery
