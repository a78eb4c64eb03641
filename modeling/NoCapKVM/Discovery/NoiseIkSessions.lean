import Mathlib.Logic.Function.Basic
import NoCapKVM.Discovery.NoiseIkTranscript
import NoCapKVM.Discovery.RecordLayer

/-! Any number of Noise IK handshakes, and the channels that are opened after them, on a network
where everything that arrives comes from the attacker. -/
namespace NoCapKVM.Discovery

open Thread NoCapKVM.Discovery.Sym

abbrev IkEvent := Σ o : IkOp Sym, IkAns o

/-- What `generate_keypair` makes of random bytes. -/
def keysOf (a : Atom) : Keypair Sym := ⟨wrap (.pub (wrap (.atom a)).val), wrap (.atom a)⟩

theorem keysOf_genuine (a : Atom) : (keysOf a).Genuine symSodium := rfl

/-- Two key pairs with one public key are the same. -/
theorem keysOf_injective {a a' : Atom} (h : (keysOf a).publicKey = (keysOf a').publicKey) : a = a' := by
  have hKey : wrap (.atom a) = wrap (.atom a') := Subtype.ext (Sym.pub.inj (wrap_injective h))
  exact Sym.atom.inj (wrap_injective hKey)

/-- Which side of the handshake a device runs. `peerStatic` is the key it has
stored for the peer. -/
inductive IkRole where
  | initiator (peerStatic : Key32 Sym)
  | responder

noncomputable def IkRole.prog (device : Nat) : IkRole → IkProg Sym (Option (IkResult Sym))
  | .initiator peerStatic => runIkInitiator symSodium (keysOf (.device device)) peerStatic
  | .responder => runIkResponder symSodium (keysOf (.device device))

/-- One handshake of one device, in the middle of its program. -/
structure IkSession where
  device : Nat
  role : IkRole
  past : List IkEvent
  rest : IkProg Sym (Option (IkResult Sym))
  performs : (role.prog device).Performs past rest
  records : Records Sym := {}

namespace IkSession

abbrev own (s : IkSession) : Keypair Sym := keysOf (.device s.device)

noncomputable def start (device : Nat) (role : IkRole) : IkSession := ⟨device, role, [], role.prog device, .nil _, {}⟩

/-- The session after the next answer. -/
def answer (s : IkSession) {o : IkOp Sym} {next : IkAns o → IkProg Sym (Option (IkResult Sym))}
    (h : s.rest = .op o next) (r : IkAns o) : IkSession where
  device := s.device
  role := s.role
  past := s.past ++ [⟨o, r⟩]
  rest := next r
  performs := Prog.Performs.answer (h ▸ s.performs) r
  records := s.records

/-- The session has made `msg1` from its ephemeral key and has handed it to
its socket. -/
structure Opened (s : IkSession) (peerStatic : Key32 Sym) (e : Keypair Sym) (msg1 : List Sym)
    (state : SymmetricState Sym) : Prop where
  role : s.role = .initiator peerStatic
  writes : ikWriteMsg1 symSodium s.own peerStatic e = some (msg1, state)
  past : ∃ sent later, s.past = ⟨.generateKeypair, e⟩ :: ⟨.sendAll msg1, sent⟩ :: later

/-- The session has read `msg1` and has handed `msg2` to its socket. -/
structure Replied (s : IkSession) (msg1 : Bytes Sym kMsg1Size) (hello : IkHello Sym) (e2 : Keypair Sym)
    (msg2 : List Sym) (result : IkResult Sym) (sent : Bool) : Prop where
  role : s.role = .responder
  reads : ikReadMsg1 symSodium s.own msg1 = some hello
  writes : ikWriteMsg2 symSodium hello e2 = some (msg2, result)
  past : s.past = [⟨.recvAll kMsg1Size, some msg1⟩, ⟨.generateKeypair, e2⟩, ⟨.sendAll msg2, sent⟩]
  rest : s.rest = .ret (if sent then some result else none)

/-- How far an initiator has come once it has something to say. -/
theorem initiator_past {own : Keypair Sym} {peerStatic : Key32 Sym} {past : List IkEvent}
    {rest : IkProg Sym (Option (IkResult Sym))}
    (h : (runIkInitiator symSodium own peerStatic).Performs past rest) :
    (∀ data sent, ⟨.sendAll data, sent⟩ ∉ past) ∧ (∀ r, rest ≠ .ret (some r)) ∨
      ∃ e msg1 state sent later, past = ⟨.generateKeypair, e⟩ :: ⟨.sendAll msg1, sent⟩ :: later ∧
        ikWriteMsg1 symSodium own peerStatic e = some (msg1, state) ∧
        (later = [] ∧ (∀ r, rest ≠ .ret (some r)) ∨
          ∃ msg2, sent = true ∧ later = [⟨.recvAll kMsg2Size, msg2⟩] ∧
            rest = .ret (msg2.bind (ikReadMsg2 symSodium own peerStatic e state))) := by
  rw [runIkInitiator_eq, Prog.performs_op] at h
  rcases h with ⟨rfl, rfl⟩ | ⟨e, past, rfl, h⟩
  · exact .inl ⟨by simp, fun r hEq => by cases hEq⟩
  cases hWrite : ikWriteMsg1 symSodium own peerStatic e with
  | none =>
      rw [hWrite, Prog.performs_ret] at h
      obtain ⟨rfl, rfl⟩ := h
      exact .inl ⟨by simp, fun r hEq => by cases hEq⟩
  | some m =>
      rw [hWrite, Prog.performs_op] at h
      rcases h with ⟨rfl, rfl⟩ | ⟨sent, later, rfl, h⟩
      · exact .inl ⟨by simp, fun r hEq => by cases hEq⟩
      refine .inr ⟨e, m.1, m.2, sent, later, rfl, hWrite, ?_⟩
      cases sent with
      | false =>
          obtain ⟨rfl, rfl⟩ := Prog.performs_ret.mp h
          exact .inl ⟨rfl, fun r hEq => by cases hEq⟩
      | true =>
          rw [if_pos rfl, Prog.performs_op] at h
          rcases h with ⟨rfl, rfl⟩ | ⟨msg2, later, rfl, h⟩
          · exact .inl ⟨rfl, fun r hEq => by cases hEq⟩
          · obtain ⟨rfl, rfl⟩ := Prog.performs_ret.mp h
            exact .inr ⟨msg2, rfl, rfl, rfl⟩

/-- How far a responder has come once it has something to say. -/
theorem responder_past {own : Keypair Sym} {past : List IkEvent} {rest : IkProg Sym (Option (IkResult Sym))}
    (h : (runIkResponder symSodium own).Performs past rest) :
    (∀ data sent, ⟨.sendAll data, sent⟩ ∉ past) ∧ (∀ r, rest ≠ .ret (some r)) ∨
      ∃ msg1 hello e2 msg2 result sent,
        past = [⟨.recvAll kMsg1Size, some msg1⟩, ⟨.generateKeypair, e2⟩, ⟨.sendAll msg2, sent⟩] ∧
        ikReadMsg1 symSodium own msg1 = some hello ∧ ikWriteMsg2 symSodium hello e2 = some (msg2, result) ∧
        rest = .ret (if sent then some result else none) := by
  rw [runIkResponder_eq, Prog.performs_op] at h
  rcases h with ⟨rfl, rfl⟩ | ⟨msg1, past, rfl, h⟩
  · exact .inl ⟨by simp, fun r hEq => by cases hEq⟩
  cases hRead : msg1.bind (ikReadMsg1 symSodium own) with
  | none =>
      rw [hRead, Prog.performs_ret] at h
      obtain ⟨rfl, rfl⟩ := h
      exact .inl ⟨by simp, fun r hEq => by cases hEq⟩
  | some hello =>
      obtain ⟨msg1, rfl, hRead⟩ := Option.bind_eq_some_iff.mp hRead
      simp only [hRead, Prog.performs_op] at h
      rcases h with ⟨rfl, rfl⟩ | ⟨e2, past, rfl, h⟩
      · exact .inl ⟨by simp, fun r hEq => by cases hEq⟩
      cases hWrite : ikWriteMsg2 symSodium hello e2 with
      | none =>
          rw [hWrite, Prog.performs_ret] at h
          obtain ⟨rfl, rfl⟩ := h
          exact .inl ⟨by simp, fun r hEq => by cases hEq⟩
      | some m =>
          rw [hWrite, Prog.performs_op] at h
          rcases h with ⟨rfl, rfl⟩ | ⟨sent, past, rfl, h⟩
          · exact .inl ⟨by simp, fun r hEq => by cases hEq⟩
          · obtain ⟨rfl, rfl⟩ := Prog.performs_ret.mp h
            exact .inr ⟨msg1, hello, e2, m.1, m.2, sent, rfl, hRead, hWrite, rfl⟩

/-- What an initiator has done so far is a start of its program. -/
theorem initiator_performs {s : IkSession} {peerStatic : Key32 Sym} (hRole : s.role = .initiator peerStatic) :
    (runIkInitiator symSodium s.own peerStatic).Performs s.past s.rest := by
  have hPerforms := s.performs
  rw [hRole] at hPerforms
  exact hPerforms

/-- What a responder has done so far is a start of its program. -/
theorem responder_performs {s : IkSession} (hRole : s.role = .responder) :
    (runIkResponder symSodium s.own).Performs s.past s.rest := by
  have hPerforms := s.performs
  rw [hRole] at hPerforms
  exact hPerforms

/-- An initiator that has ended well has sent its message and has read a
reply to it. -/
theorem initiator_done {s : IkSession} {peerStatic : Key32 Sym} (hRole : s.role = .initiator peerStatic)
    {r : IkResult Sym} (hDone : s.rest = .ret (some r)) :
    ∃ e msg1 state msg2, s.Opened peerStatic e msg1 state ∧
      s.past = [⟨.generateKeypair, e⟩, ⟨.sendAll msg1, true⟩, ⟨.recvAll kMsg2Size, some msg2⟩] ∧
      ikReadMsg2 symSodium s.own peerStatic e state msg2 = some r := by
  rcases initiator_past (initiator_performs hRole) with ⟨-, hNot⟩ | ⟨e, msg1, state, sent, later, hPast, hWrite, hLater⟩
  · exact absurd hDone (hNot r)
  rcases hLater with ⟨-, hNot⟩ | ⟨msg2, rfl, rfl, hRest⟩
  · exact absurd hDone (hNot r)
  · rw [hDone] at hRest
    obtain ⟨msg2, rfl, hRead⟩ := Option.bind_eq_some_iff.mp (Prog.ret.inj hRest).symm
    exact ⟨e, msg1, state, msg2, ⟨hRole, hWrite, true, _, hPast⟩, hPast, hRead⟩

/-- A responder that has ended well has read a first message and has
sent its reply. -/
theorem responder_done {s : IkSession} (hRole : s.role = .responder) {r : IkResult Sym}
    (hDone : s.rest = .ret (some r)) : ∃ msg1 hello e2 msg2, s.Replied msg1 hello e2 msg2 r true := by
  rcases responder_past (responder_performs hRole) with ⟨-, hNot⟩ | ⟨msg1, hello, e2, msg2, result, sent, hPast, hRead, hWrite, hRest⟩
  · exact absurd hDone (hNot r)
  cases sent with
  | false =>
      rw [hDone] at hRest
      cases Prog.ret.inj hRest
  | true =>
      have hResult : r = result := by
        rw [hDone] at hRest
        exact Option.some.inj (Prog.ret.inj hRest)
      subst hResult
      exact ⟨msg1, hello, e2, msg2, hRole, hRead, hWrite, hPast, hRest⟩

/-- What a session sends is the message of its side. -/
theorem sent_cases {s : IkSession} {data : List Sym} {sent : Bool} (h : ⟨.sendAll data, sent⟩ ∈ s.past) :
    (∃ peerStatic e state, s.Opened peerStatic e data state) ∨
      ∃ msg1 hello e2 result, s.Replied msg1 hello e2 data result sent := by
  cases hRole : s.role with
  | initiator peerStatic =>
      rcases initiator_past (initiator_performs hRole) with ⟨hNot, -⟩ | ⟨e, msg1, state, sent', later, hPast, hWrite, hLater⟩
      · exact absurd h (hNot data sent)
      have hData : data = msg1 ∧ sent = sent' := by
        rw [hPast] at h
        rcases hLater with ⟨rfl, -⟩ | ⟨msg2, -, rfl, -⟩
        · simpa using h
        · simpa using h
      obtain ⟨rfl, rfl⟩ := hData
      exact .inl ⟨peerStatic, e, state, hRole, hWrite, sent, later, hPast⟩
  | responder =>
      rcases responder_past (responder_performs hRole) with ⟨hNot, -⟩ | ⟨msg1, hello, e2, msg2, result, sent', hPast, hRead, hWrite, hRest⟩
      · exact absurd h (hNot data sent)
      have hData : data = msg2 ∧ sent = sent' := by
        rw [hPast] at h
        simpa using h
      obtain ⟨rfl, rfl⟩ := hData
      exact .inr ⟨msg1, hello, e2, result, hRole, hRead, hWrite, hPast, hRest⟩

end IkSession

/-- `derive_audio_key` -/
noncomputable def audioKeyOf (transportKey : Key32 Sym) : Key32 Sym :=
  symSodium.genericHash (transportKey.val ++ Audio.kLabel.map .byte)

def IkSession.frameNonce (n : Nat) : List UInt8 := nonceBytes (UInt64.ofNat n)

def IkSession.packetNonce (seq : UInt32) : List UInt8 := nonceBytes seq.toUInt64

/-- What the session has encrypted for its channels. -/
def IkSession.channelWrote (s : IkSession) : Set Sym :=
  {x | ∃ r, s.rest = .ret (some r) ∧
    ((∃ n plaintext place, s.records.frames[n]? = some plaintext ∧
        x = .sealed place plaintext [] (frameNonce n) r.keys.sendKey.val) ∨
      ∃ seq data place, (seq, data) ∈ s.records.packets ∧
        x = .sealed place data [] (packetNonce seq) (audioKeyOf r.keys.sendKey).val)}

/-- All handshakes of all devices that keep their private keys. One that has
not started has an empty past. -/
structure Network where
  sessions : Nat → IkSession
  /-- What was on the network, and the private keys of the other devices. -/
  known : Set Sym
  drawn : Nat := 0

namespace Network

/-- `i` is where `s` is, and the other sessions stay as they are. -/
def put (N : Network) (i : Nat) (s : IkSession) : Network :=
  { N with sessions := Function.update N.sessions i s }

def record (N : Network) (i : Nat) (records : Records Sym) : Network :=
  N.put i { N.sessions i with records := records }

def hears (N : Network) (data : List Sym) : Network :=
  { N with known := N.known ∪ {x | x ∈ data} }

variable (honest : Set Nat)

structure Starts (N : Network) : Prop where
  past : ∀ i, (N.sessions i).past = []
  records : ∀ i, (N.sessions i).records = {}
  device : ∀ i, (N.sessions i).device ∈ honest
  known : N.known = {x | ∃ d ∉ honest, x = .atom (.device d)}
  drawn : N.drawn = 0

/-- A session that has ended sends whatever it likes to the peer it believes
in. Only a peer that keeps its private key can be told more than the
attacker knows. -/
def MaySay (N : Network) (r : IkResult Sym) (plaintext : List Sym) : Prop :=
  (∀ d ∈ honest, r.peerStatic ≠ (keysOf (.device d)).publicKey) → AllWithin (symSodium.derivable N.known) plaintext

/-- What the handshakes and the channels of the sessions do, one step
at a time. The symbols stand for ciphertexts while no nonce is used
twice, so none is. -/
inductive Step : Network → Network → Prop
  | draw {N : Network} {i : Nat} {next} (h : (N.sessions i).rest = .op .generateKeypair next) :
      Step N { N.put i ((N.sessions i).answer h (keysOf (.ephemeral N.drawn))) with drawn := N.drawn + 1 }
  | send {N : Network} {i : Nat} {data next} (h : (N.sessions i).rest = .op (.sendAll data) next) (sent : Bool) :
      Step N ((N.put i ((N.sessions i).answer h sent)).hears data)
  | recv {N : Network} {i len : Nat} {next} (h : (N.sessions i).rest = .op (.recvAll len) next)
      (msg : Option (Bytes Sym len))
      (hMade : ∀ bytes, msg = some bytes → AllWithin (symSodium.derivable N.known) bytes.val) :
      Step N (N.put i ((N.sessions i).answer h msg))
  | sendFrame {N : Network} {i : Nat} {r : IkResult Sym} (h : (N.sessions i).rest = .ret (some r))
      (plaintext : List Sym) (hSay : N.MaySay honest r plaintext)
      (hFresh : (N.sessions i).records.frames.length < 2 ^ 64) :
      Step N ((N.record i ((N.sessions i).records.send plaintext)).hears
        (aeadEncrypt symSodium r.keys.sendKey (UInt64.ofNat (N.sessions i).records.frames.length) [] plaintext))
  | sendPacket {N : Network} {i : Nat} {r : IkResult Sym} (h : (N.sessions i).rest = .ret (some r)) (seq : UInt32)
      (data : List Sym) (hSay : N.MaySay honest r data)
      (hFresh : ∀ p ∈ (N.sessions i).records.packets, p.1 ≠ seq) :
      Step N ((N.record i ((N.sessions i).records.sendTo seq data)).hears
        (aeadEncrypt symSodium (audioKeyOf r.keys.sendKey) seq.toUInt64 [] data))
  | acceptFrame {N : Network} {i : Nat} {r : IkResult Sym} (h : (N.sessions i).rest = .ret (some r))
      {ciphertext plaintext : List Sym} (hMade : AllWithin (symSodium.derivable N.known) ciphertext)
      (hFresh : (N.sessions i).records.accepted.length < 2 ^ 64)
      (hOpens : aeadDecrypt symSodium r.keys.recvKey (UInt64.ofNat (N.sessions i).records.accepted.length) [] ciphertext =
        some plaintext) :
      Step N (N.record i ((N.sessions i).records.accept plaintext))
  | hearPacket {N : Network} {i : Nat} {r : IkResult Sym} (h : (N.sessions i).rest = .ret (some r)) (seq : UInt32)
      {ciphertext data : List Sym} (hMade : AllWithin (symSodium.derivable N.known) ciphertext)
      (hOpens : aeadDecrypt symSodium (audioKeyOf r.keys.recvKey) seq.toUInt64 [] ciphertext = some data) :
      Step N (N.record i ((N.sessions i).records.hear seq data))

/-- To hear nothing changes nothing. -/
theorem hears_nil (N : Network) : N.hears [] = N := by
  obtain ⟨sessions, known, drawn⟩ := N
  simp [hears]

variable {honest} in
/-- The record layer of a session that has ended well takes the steps of the
network, as long as no nonce is used twice. -/
theorem Step.of_record {N : Network} {i : Nat} {r : IkResult Sym} (h : (N.sessions i).rest = .ret (some r))
    {said out taken : List Sym} {records : Records Sym}
    (hRecord : RecordStep symSodium r.keys ⟨audioKeyOf r.keys.sendKey, audioKeyOf r.keys.recvKey⟩
      (N.sessions i).records said out taken records)
    (hFresh : records.Fresh) (hSay : N.MaySay honest r said)
    (hMade : AllWithin (symSodium.derivable N.known) taken) : Step honest N ((N.record i records).hears out) := by
  generalize hOld : (N.sessions i).records = old at hRecord
  cases hRecord with
  | sendFrame =>
      subst hOld
      have hLess := hFresh.frames
      rw [Records.send, List.length_append, List.length_singleton] at hLess
      exact .sendFrame h said hSay hLess
  | acceptFrame hOpens =>
      subst hOld
      have hLess := hFresh.accepted
      rw [Records.accept, List.length_append, List.length_singleton] at hLess
      rw [hears_nil]
      exact .acceptFrame h hMade hLess hOpens
  | sendPacket seq =>
      subst hOld
      have hOnce := hFresh.packets
      rw [Records.sendTo, List.map_append, List.nodup_append] at hOnce
      refine .sendPacket h seq said hSay fun p hp => ?_
      exact hOnce.2.2 p.1 (List.mem_map_of_mem hp) seq (List.mem_singleton_self seq)
  | hearPacket hOpens =>
      subst hOld
      rw [hears_nil]
      exact .hearPacket h _ hMade hOpens

inductive Reachable : Network → Prop
  | start {N : Network} (h : N.Starts honest) : Reachable N
  | step {N N' : Network} (hN : Reachable N) (h : Step honest N N') : Reachable N'

/-- What the attacker starts without. -/
def kept : Set Atom := {a | ∀ d ∉ honest, a ≠ .device d}

/-- What the sessions have made: the messages of their handshakes, and what
they have encrypted since. -/
def wrote (N : Network) : Set Sym :=
  {x | ∃ i, (∃ data sent, ⟨.sendAll data, sent⟩ ∈ (N.sessions i).past ∧ x ∈ data) ∨ x ∈ (N.sessions i).channelWrote}

/-- Holds of every network that can be reached. -/
structure Sound (N : Network) : Prop where
  device : ∀ i, (N.sessions i).device ∈ honest
  drawn : ∀ i e, ⟨.generateKeypair, e⟩ ∈ (N.sessions i).past → ∃ n < N.drawn, e = keysOf (.ephemeral n)
  apart : ∀ i j e, ⟨.generateKeypair, e⟩ ∈ (N.sessions i).past → ⟨.generateKeypair, e⟩ ∈ (N.sessions j).past → i = j
  known : N.known ⊆ knowable (kept honest) N.wrote
  read : ∀ i len bytes, ⟨.recvAll len, some bytes⟩ ∈ (N.sessions i).past →
    AllWithin (knowable (kept honest) N.wrote) bytes.val

/-- An event of a session was there before, or is the one that
was just added. -/
theorem mem_put_past {N : Network} {i j : Nat} {o : IkOp Sym} {next} (h : (N.sessions i).rest = .op o next)
    {r : IkAns o} {x : IkEvent} (hx : x ∈ ((N.put i ((N.sessions i).answer h r)).sessions j).past) :
    x ∈ (N.sessions j).past ∨ j = i ∧ x = ⟨o, r⟩ := by
  by_cases hJ : j = i
  · subst hJ
    simpa [put, IkSession.answer] using hx
  · simp only [put, Function.update_of_ne hJ] at hx
    exact .inl hx

/-- A step takes nothing out of any past. -/
theorem past_subset_put {N : Network} {i : Nat} {o : IkOp Sym} {next} (h : (N.sessions i).rest = .op o next)
    (r : IkAns o) (j : Nat) :
    (N.sessions j).past ⊆ ((N.put i ((N.sessions i).answer h r)).sessions j).past := by
  by_cases hJ : j = i
  · subst hJ
    simp [put, IkSession.answer]
  · simp [put, Function.update_of_ne hJ]

/-- So what was written stays written. -/
theorem wrote_subset_put {N : Network} {i : Nat} {o : IkOp Sym} {next} (h : (N.sessions i).rest = .op o next)
    (r : IkAns o) : N.wrote ⊆ (N.put i ((N.sessions i).answer h r)).wrote := by
  rintro x ⟨j, ⟨data, sent, hSent, hx⟩ | ⟨r', hRest, hx⟩⟩
  · exact ⟨j, .inl ⟨data, sent, past_subset_put h r j hSent, hx⟩⟩
  · -- A session with something left to do has encrypted nothing for its channels.
    have hNe : j ≠ i := by
      rintro rfl
      rw [h] at hRest
      cases hRest
    refine ⟨j, .inr ⟨r', ?_, ?_⟩⟩
    · simpa [put, Function.update_of_ne hNe] using hRest
    · simpa [put, Function.update_of_ne hNe] using hx

section

variable {N : Network} {i : Nat} {records : Records Sym}

@[simp] theorem record_sessions (j : Nat) :
    (N.record i records).sessions j =
      { N.sessions j with records := if j = i then records else (N.sessions j).records } := by
  by_cases hJ : j = i
  · subst hJ
    simp [record, put]
  · simp [record, put, hJ]

/-- More records of a session only add to what was written. -/
theorem wrote_subset_record (hFrames : (N.sessions i).records.frames <+: records.frames)
    (hPackets : (N.sessions i).records.packets ⊆ records.packets) : N.wrote ⊆ (N.record i records).wrote := by
  rintro x ⟨j, ⟨data, sent, hSent, hx⟩ | ⟨r, hRest, hx⟩⟩
  · refine ⟨j, .inl ⟨data, sent, ?_, hx⟩⟩
    rw [record_sessions]
    exact hSent
  · refine ⟨j, .inr ?_⟩
    rw [record_sessions]
    refine ⟨r, hRest, ?_⟩
    by_cases hJ : j = i
    · subst hJ
      simp only [if_true]
      rcases hx with ⟨n, plaintext, place, hFrame, hx⟩ | ⟨seq, data, place, hPacket, hx⟩
      · obtain ⟨more, hMore⟩ := hFrames
        refine .inl ⟨n, plaintext, place, ?_, hx⟩
        rw [← hMore, List.getElem?_append_left (List.getElem?_eq_some_iff.mp hFrame).1]
        exact hFrame
      · exact .inr ⟨seq, data, place, hPackets hPacket, hx⟩
    · simp only [if_neg hJ]
      exact hx

end

variable {honest}

/-- `N'` is `N` with one more answer for `i`. -/
structure Follows (N N' : Network) (i : Nat) {o : IkOp Sym} (next : IkAns o → IkProg Sym (Option (IkResult Sym)))
    (r : IkAns o) : Prop where
  past : (N'.sessions i).past = (N.sessions i).past ++ [⟨o, r⟩]
  rest : (N'.sessions i).rest = next r
  device : ∀ j, (N'.sessions j).device = (N.sessions j).device
  role : ∀ j, (N'.sessions j).role = (N.sessions j).role
  records : ∀ j, (N'.sessions j).records = (N.sessions j).records
  others : ∀ j ≠ i, N'.sessions j = N.sessions j

/-- Putting an answer into one session gives the network in which that session
goes on. -/
theorem follows_put {N N' : Network} {i : Nat} {o : IkOp Sym} {next} (h : (N.sessions i).rest = .op o next)
    {r : IkAns o} (hN' : N'.sessions = Function.update N.sessions i ((N.sessions i).answer h r)) :
    N.Follows N' i next r where
  past := by rw [hN', Function.update_self]; rfl
  rest := by rw [hN', Function.update_self]; rfl
  device j := by
    by_cases hJ : j = i
    · rw [hN', hJ, Function.update_self]
      rfl
    · rw [hN', Function.update_of_ne hJ]
  records j := by
    by_cases hJ : j = i
    · rw [hN', hJ, Function.update_self]
      rfl
    · rw [hN', Function.update_of_ne hJ]
  role j := by
    by_cases hJ : j = i
    · rw [hN', hJ, Function.update_self]
      rfl
    · rw [hN', Function.update_of_ne hJ]
  others j hJ := by rw [hN', Function.update_of_ne hJ]

variable {N : Network} (hN : N.Reachable honest) {i : Nat}
include hN

/-- A session may draw an ephemeral key, and nobody has drawn
that key before. -/
theorem Reachable.draw {next} (h : (N.sessions i).rest = .op .generateKeypair next) :
    ∃ N', N'.Reachable honest ∧ N.Follows N' i next (keysOf (.ephemeral N.drawn)) :=
  ⟨_, hN.step (.draw h), follows_put h rfl⟩

/-- A session may hand its message to its socket, and the attacker
then knows it. -/
theorem Reachable.send {data : List Sym} {next} (h : (N.sessions i).rest = .op (.sendAll data) next) :
    ∃ N', N'.Reachable honest ∧ N.Follows N' i next true ∧ ∀ x ∈ data, x ∈ N'.known :=
  ⟨_, hN.step (.send h true), follows_put h rfl, fun _ hx => .inr hx⟩

/-- The attacker may deliver any bytes that it knows. -/
theorem Reachable.recv {len : Nat} {next} (h : (N.sessions i).rest = .op (.recvAll len) next)
    {bytes : Bytes Sym len} (hKnown : ∀ x ∈ bytes.val, x ∈ N.known) :
    ∃ N', N'.Reachable honest ∧ N.Follows N' i next (some bytes) := by
  refine ⟨_, hN.step (.recv h (some bytes) ?_), follows_put h rfl⟩
  intro bytes' hEq x hx
  obtain rfl := Option.some.inj hEq
  exact symSodium.subset_derivable N.known (hKnown x hx)

/-- A handshake whose messages the attacker passes on ends well
on both sides. -/
theorem Reachable.meet {j a b : Nat} (hNe : i ≠ j)
    (hI : N.sessions i = .start a (.initiator (keysOf (.device b)).publicKey))
    (hJ : N.sessions j = .start b .responder) :
    ∃ (M : Network) (r r' : IkResult Sym), M.Reachable honest ∧
      (M.sessions i).role = .initiator (keysOf (.device b)).publicKey ∧ (M.sessions j).role = .responder ∧
      (M.sessions i).rest = .ret (some r) ∧ (M.sessions j).rest = .ret (some r') ∧
      r.peerStatic = (keysOf (.device b)).publicKey ∧ r'.peerStatic = (keysOf (.device a)).publicKey ∧
      r.keys.recvKey = r'.keys.sendKey ∧ ∀ k, (M.sessions k).records = (N.sessions k).records := by
  have hContract := symSodium_symbolic.toContract
  have hRestI : (N.sessions i).rest = runIkInitiator symSodium (keysOf (.device a)) (keysOf (.device b)).publicKey := by
    rw [hI]
    rfl
  have hRestJ : (N.sessions j).rest = runIkResponder symSodium (keysOf (.device b)) := by
    rw [hJ]
    rfl
  rw [runIkInitiator_eq] at hRestI
  rw [runIkResponder_eq] at hRestJ
  -- The first message goes out and arrives.
  obtain ⟨N₁, hN₁, h₁⟩ := hN.draw hRestI
  obtain ⟨msg1, state, hMsg1⟩ := exists_ikWriteMsg1 (keysOf (.device a)) (keysOf (.ephemeral N.drawn))
    (keysOf (.device b)).publicKey
  have hLen1 := ikWriteMsg1_length hContract.toAeadContract hMsg1
  have hRest₁ := h₁.rest
  simp only [hMsg1] at hRest₁
  obtain ⟨N₂, hN₂, h₂, hSent1⟩ := hN₁.send hRest₁
  rw [← h₁.others j hNe.symm, ← h₂.others j hNe.symm] at hRestJ
  have hBytes1 : ∀ x ∈ (⟨msg1, hLen1⟩ : Bytes Sym kMsg1Size).val, x ∈ N₂.known := hSent1
  obtain ⟨N₃, hN₃, h₃⟩ := hN₂.recv hRestJ hBytes1
  have hHello := ikReadMsg1_ikWriteMsg1 hContract (keysOf_genuine _) (keysOf_genuine _) (keysOf_genuine _) hMsg1 hLen1
  have hRest₃ := h₃.rest
  simp only [Option.bind_some, hHello] at hRest₃
  -- The second message goes out and arrives.
  obtain ⟨N₄, hN₄, h₄⟩ := hN₃.draw hRest₃
  obtain ⟨msg2, result, hMsg2⟩ := exists_ikWriteMsg2
    ⟨(keysOf (.ephemeral N.drawn)).publicKey, (keysOf (.device a)).publicKey, state⟩ (keysOf (.ephemeral N₃.drawn))
  have hLen2 := ikWriteMsg2_length hContract.toAeadContract hMsg2
  have hRest₄ := h₄.rest
  simp only [hMsg2] at hRest₄
  obtain ⟨N₅, hN₅, h₅, hSent2⟩ := hN₄.send hRest₄
  have hRest₂ := h₂.rest
  rw [if_pos rfl, ← h₃.others i hNe, ← h₄.others i hNe, ← h₅.others i hNe] at hRest₂
  have hBytes2 : ∀ x ∈ (⟨msg2, hLen2⟩ : Bytes Sym kMsg2Size).val, x ∈ N₅.known := hSent2
  obtain ⟨N₆, hN₆, h₆⟩ := hN₅.recv hRest₂ hBytes2
  have hRest₆ := h₆.rest
  rw [Option.bind_some, ikReadMsg2_ikWriteMsg2 hContract (keysOf_genuine _) (keysOf_genuine _) (keysOf_genuine _)
    hMsg2 hLen2] at hRest₆
  have hRest₅ := h₅.rest
  rw [if_pos rfl, ← h₆.others j hNe.symm] at hRest₅
  have hRole : ∀ k, (N₆.sessions k).role = (N.sessions k).role := by
    intro k
    rw [h₆.role, h₅.role, h₄.role, h₃.role, h₂.role, h₁.role]
  obtain ⟨ee, se, -, -, -, hPeer⟩ := ikWriteMsg2_reply hMsg2
  refine ⟨N₆, _, result, hN₆, ?_, ?_, hRest₆, hRest₅, rfl, hPeer, rfl, ?_⟩
  · rw [hRole, hI]
    rfl
  · rw [hRole, hJ]
    rfl
  · intro k
    rw [h₆.records, h₅.records, h₄.records, h₃.records, h₂.records, h₁.records]

/-- A frame that the attacker passes on is accepted. -/
theorem Reachable.relay {j : Nat} (hNe : i ≠ j) {r r' : IkResult Sym} (hI : (N.sessions i).rest = .ret (some r))
    (hJ : (N.sessions j).rest = .ret (some r')) (hKeys : r.keys.recvKey = r'.keys.sendKey)
    (hCount : (N.sessions i).records.accepted.length = (N.sessions j).records.frames.length)
    (hFresh : (N.sessions j).records.frames.length < 2 ^ 64) {plaintext : List Sym}
    (hSay : N.MaySay honest r' plaintext) :
    ∃ M : Network, M.Reachable honest ∧ (M.sessions i).rest = .ret (some r) ∧
      (M.sessions i).records = (N.sessions i).records.accept plaintext := by
  have hN₁ := hN.step (.sendFrame hJ plaintext hSay hFresh)
  set N₁ := (N.record j ((N.sessions j).records.send plaintext)).hears
    (aeadEncrypt symSodium r'.keys.sendKey (UInt64.ofNat (N.sessions j).records.frames.length) [] plaintext)
  have hSame : N₁.sessions i = N.sessions i := by
    simp [N₁, Network.hears, hNe]
  have hRest₁ : (N₁.sessions i).rest = .ret (some r) := by rw [hSame, hI]
  have hOpens : aeadDecrypt symSodium r.keys.recvKey (UInt64.ofNat (N₁.sessions i).records.accepted.length) []
      (aeadEncrypt symSodium r'.keys.sendKey (UInt64.ofNat (N.sessions j).records.frames.length) [] plaintext) =
        some plaintext := by
    rw [hSame, hCount, hKeys]
    exact decrypt_encrypt _ _ _ _
  have hCount₁ : (N₁.sessions i).records.accepted.length < 2 ^ 64 := by
    rw [hSame, hCount]
    exact hFresh
  refine ⟨N₁.record i ((N₁.sessions i).records.accept plaintext),
    hN₁.step (.acceptFrame hRest₁ (fun x hx => symSodium.subset_derivable _ (.inr hx)) hCount₁ hOpens), ?_, ?_⟩
  · rw [record_sessions]
    exact hRest₁
  · rw [record_sessions, if_pos rfl, hSame]

end Network

/-- Devices 0 and 1, before a handshake from the first to the second. -/
noncomputable def twoDevices : Network where
  sessions i := if i = 0 then .start 0 (.initiator (keysOf (.device 1)).publicKey) else .start 1 .responder
  known := {x | ∃ d ∉ ({0, 1} : Set Nat), x = .atom (.device d)}

/-- Before a handshake everything is as it starts. -/
theorem twoDevices_starts : twoDevices.Starts {0, 1} where
  past i := by
    simp only [twoDevices]
    split
    · rfl
    · rfl
  records i := by
    simp only [twoDevices]
    split
    · rfl
    · rfl
  device i := by
    simp only [twoDevices]
    split
    · exact .inl rfl
    · exact .inr rfl
  known := rfl
  drawn := rfl

end NoCapKVM.Discovery
