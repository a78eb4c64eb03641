import NoCapKVM.Discovery.NoiseIkAuthentication

/-! What the attacker learns when it gets the private keys of all devices in the end. -/
namespace NoCapKVM.Discovery

open Thread NoCapKVM.Discovery.Sym

/-- The keys of handshakes and the user data. -/
def passing : Set Atom := {a | ∀ d, a ≠ .device d}

theorem passing_ephemeral (n : Nat) : .ephemeral n ∈ passing := fun _ h => by cases h

namespace Network

variable {honest : Set Nat} {N N' : Network}

theorem replied_hidden {s : IkSession} {hidden : Set Atom} {msg1 : Bytes Sym kMsg1Size} {hello : IkHello Sym}
    {e2 : Keypair Sym} {msg2 : List Sym} {result : IkResult Sym} {sent : Bool}
    (h : s.Replied msg1 hello e2 msg2 result sent) {a b : Atom} (hRe : hello.re = (keysOf a).publicKey)
    (hE2 : e2 = keysOf b) (hA : a ∈ hidden) (hB : b ∈ hidden) :
    ¬ AllOpen hidden result.keys.recvKey.val ∧ ¬ AllOpen hidden result.keys.sendKey.val := by
  obtain ⟨ee, se, hEe, -, hReply, -⟩ := ikWriteMsg2_reply h.writes
  rw [hRe, hE2] at hEe
  exact reply_hidden hReply (.inl (IkSession.dh_hidden hB hA hEe))

/-- The transport keys of a handshake between two honest devices also come
from a secret that no private key of a device leads to. -/
theorem Sound.keys_passing (hN : N.Sound honest) {i d : Nat} (hD : d ∈ honest) {r : IkResult Sym}
    (hDone : (N.sessions i).rest = .ret (some r)) (hPeer : r.peerStatic = (keysOf (.device d)).publicKey) :
    ¬ AllOpen passing r.keys.sendKey.val ∧ ¬ AllOpen passing r.keys.recvKey.val := by
  cases hRole : (N.sessions i).role with
  | initiator peerStatic =>
      obtain ⟨_, _, _, _, -, -, hRead⟩ := IkSession.initiator_done hRole hDone
      obtain ⟨_, _, _, -, -, -, hStatic⟩ := ikReadMsg2_reply hRead
      rw [← hStatic, hPeer] at hRole
      obtain ⟨j, e, msg1, hello, e2, msg2, sent, hPast, -, hRe, hReplied⟩ := hN.initiator_met hD hRole hDone
      obtain ⟨n, hE⟩ := hN.draws i e (by simp [hPast])
      obtain ⟨n', hE2⟩ := hN.draws j e2 hReplied.drew
      rw [hE] at hRe
      exact replied_hidden hReplied hRe hE2 (passing_ephemeral n) (passing_ephemeral n')
  | responder =>
      obtain ⟨j, e, state, msg1, hello, e2, msg2, -, hRe, hOpened, hReplied⟩ := hN.responder_met hD hRole hDone hPeer
      obtain ⟨n, hE⟩ := hN.draws j e hOpened.drew
      obtain ⟨n', hE2⟩ := hN.draws i e2 hReplied.drew
      rw [hE] at hRe
      exact (replied_hidden hReplied hRe hE2 (passing_ephemeral n) (passing_ephemeral n')).symm

theorem Reachable.known_passing (hN : N.Reachable honest) : N.known ⊆ knowable passing Set.univ := by
  induction hN with
  | start h =>
      rw [h.known]
      rintro x ⟨d, -, rfl⟩
      exact ⟨fun hPassing => hPassing d rfl, trivial⟩
  | @step N N' hN h ih =>
      cases h with
      | draw h => exact ih
      | @send i data next h sent =>
          have hSent := mem_answer h sent
          have hDraws := (hN.step (.send h sent)).sound.draws i
          exact Set.union_subset ih (IkSession.sent_knowable hDraws hSent fun _ _ => trivial)
      | recv h msg hMade => exact ih
      | @sendFrame i r h plaintext hSay hFresh =>
          refine Set.union_subset ih (channel_knowable (fun _ => trivial) ?_)
          exact hSay.knowable ih fun d hD hPeer => (hN.sound.keys_passing hD h hPeer).1
      | @sendPacket i r h seq data hSay hFresh =>
          refine Set.union_subset ih (channel_knowable (fun _ => trivial) fun hOpen => ?_)
          refine hSay.knowable ih (fun d hD hPeer => (hN.sound.keys_passing hD h hPeer).1) ?_
          by_contra hHidden
          exact audioKeyOf_hidden hHidden hOpen
      | acceptFrame h hMade hFresh hOpens => exact ih
      | hearPacket h seq hMade hOpens => exact ih

/-- What the attacker has when it has got hold of the private keys of all
devices. -/
def leaked (N : Network) : Set Sym := N.known ∪ {x | ∃ d, x = .atom (.device d)}

theorem Reachable.leaked_passing (hN : N.Reachable honest) : symSodium.derivable N.leaked ⊆ knowable passing Set.univ := by
  apply derivable_knowable
  apply Set.union_subset hN.known_passing
  rintro x ⟨d, rfl⟩
  exact ⟨fun hPassing => hPassing d rfl, trivial⟩

end Network

/-- Private keys that leak later give away neither user data nor the keys of
any handshake that ended well between two honest devices. No session of the
network uses a nonce twice: none counts 2 ^ 64 frames, and none sends two
packets under one number. -/
theorem forward_secrecy {honest : Set Nat} {N : Network} (hN : N.Reachable honest) :
    (∀ a, (∀ d, a ≠ .device d) → .atom a ∉ symSodium.derivable N.leaked) ∧
    ∀ i d r, d ∈ honest → (N.sessions i).rest = .ret (some r) →
      r.peerStatic = (keysOf (.device d)).publicKey →
        ¬ AllWithin (symSodium.derivable N.leaked) r.keys.sendKey.val ∧
        ¬ AllWithin (symSodium.derivable N.leaked) r.keys.recvKey.val := by
  constructor
  · intro a hPassing hDerived
    exact (hN.leaked_passing hDerived).1 hPassing
  · intro i d r hD hDone hPeer
    obtain ⟨hSend, hRecv⟩ := hN.sound.keys_passing hD hDone hPeer
    constructor
    · exact fun hAll => hSend (within_knowable.mp fun x hx => hN.leaked_passing (hAll x hx)).1
    · exact fun hAll => hRecv (within_knowable.mp fun x hx => hN.leaked_passing (hAll x hx)).1

theorem forward_secrecy_left_alone :
    ∃ (N : Network) (r : IkResult Sym), N.Reachable {0, 1} ∧ (N.sessions 0).rest = .ret (some r) ∧
      ¬ AllWithin (symSodium.derivable N.leaked) r.keys.sendKey.val := by
  obtain ⟨N, r, r', hN, -, -, hDone, -, hPeer, -⟩ :=
    (Network.Reachable.start twoDevices_starts).meet Nat.zero_ne_one rfl rfl
  exact ⟨N, r, hN, hDone, ((forward_secrecy hN).2 0 1 r (.inr rfl) hDone hPeer).1⟩

end NoCapKVM.Discovery
