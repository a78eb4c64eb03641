import NoCapKVM.Discovery.World
import NoCapKVM.Thread.Replay

/-! Concrete runs of a connection thread. -/
namespace NoCapKVM.Discovery

open Thread

/-- How the answer of one operation is chosen where it is open. `usual` takes
what is there: the next bytes, the present time, a transfer that succeeds. -/
inductive Choice where
  | usual
  | fails
  | time (t : Time)
  | client (ip : String) (stream : List UInt8)
  | keypair (k : Keypair UInt8)
  | message (r : RecvResult)

namespace World

def respond : (o : Op) → World → Choice → Option (Ans o × World)
  | .loadRunning, s, _ => some (s.running, s)
  | .now, s, .time t => if s.clock ≤ t then some (t, { s with clock := t }) else none
  | .now, s, _ => some (s.clock, { s with clock := s.clock })
  | .sleepFor duration, s, _ => some ((), { s with clock := s.clock + duration })
  | .createTcpSocket, s, x => some (x matches .usual, s)
  | .connect .., s, x => some (x matches .usual, s)
  | .waitReadable _, s, x => some (x matches .usual, s)
  | .accept, s, .client ip stream =>
      some (some ip, { s with incoming := stream, kickedAtAccept := s.kicked })
  | .accept, s, _ => some (none, s)
  | .sendAll .., s, x => some (x matches .usual, s)
  | .recvAll _ len _, s, .usual =>
      if h : len ≤ s.incoming.length then
        some (some ⟨s.incoming.take len, List.length_take_of_le h⟩,
          { s with incoming := s.incoming.drop len })
      else none
  | .recvAll .., s, _ => some (none, { s with incoming := s.incoming })
  | .generateKeypair, s, .keypair k => some (k, s)
  | .generateKeypair, _, _ => none
  | .getPubkey deviceId, s, _ => some (s.knownPeers.getPubkey deviceId, s)
  | .remember deviceId pubkey, s, _ =>
      some ((), { s with knownPeers := s.knownPeers.remember deviceId pubkey })
  | .assignStatus info, s, _ => some ((), { s with status := info })
  | .updateStatus u, s, _ => some ((), { s with status := u.apply s.status })
  | .storeDecision d, s, _ => some ((), { s with decision := d })
  | .loadDecision, s, _ => some (s.decision, s)
  | .kickedCount deviceId, s, _ => some (s.kicked deviceId, s)
  | .kickedInsert deviceId, s, _ =>
      some ((), { s with kicked := fun d => d = deviceId || s.kicked d })
  | .kickedErase deviceId, s, _ =>
      some ((), { s with kicked := fun d => d ≠ deviceId && s.kicked d })
  | .setActiveChannel active, s, _ => some ((), { s with activeChannel := active })
  | .channelSend .., s, x => some (x matches .usual, s)
  | .channelReceive _, s, .message r => some (r, s)
  | .channelReceive _, s, _ => some (.timeout, s)
  | .storeDisconnect requested, s, _ => some ((), { s with disconnectRequested := requested })
  | .loadDisconnect, s, _ => some (s.disconnectRequested, s)
  | .loadHeartbeatTimeout, s, _ => some (s.heartbeatTimeout, s)
  | .getLocalMonitors, s, _ => some ([], s)
  | .setPendingClipboard message, s, _ => some ((), { s with pendingClipboard := some message })
  | .closeSocket, s, _ => some ((), s)
  | .remark _, s, _ => some ((), s)
  | .openChannel _, s, _ => some ((), s)
  | .inject _, s, _ => some ((), s)

theorem exec_of_respond {o : Op} {s s' : World} {x : Choice} {r : Ans o}
    (h : respond o s x = some (r, s')) : exec o s r s' := by
  cases o with
  | now =>
      cases x with
      | time t =>
          simp only [respond, Option.ite_none_right_eq_some, Option.some.injEq, Prod.mk.injEq] at h
          obtain ⟨hLe, rfl, rfl⟩ := h
          exact ⟨hLe, rfl⟩
      | _ =>
          cases h
          exact ⟨Nat.le_refl _, rfl⟩
  | sleepFor duration =>
      cases h
      exact ⟨_, Nat.le_refl _, rfl⟩
  | accept =>
      cases x with
      | client ip stream =>
          cases h
          exact Or.inr ⟨ip, stream, rfl, rfl⟩
      | _ =>
          cases h
          exact Or.inl ⟨rfl, rfl⟩
  | recvAll phase len deadline =>
      cases x with
      | usual =>
          simp only [respond, Option.dite_none_right_eq_some, Option.some.injEq, Prod.mk.injEq] at h
          obtain ⟨hLe, rfl, rfl⟩ := h
          exact Or.inl ⟨_, _, rfl, (List.take_append_drop ..).symm, rfl⟩
      | _ =>
          cases h
          exact Or.inr ⟨rfl, [], _, rfl, rfl⟩
  | generateKeypair =>
      cases x with
      | keypair k =>
          cases h
          rfl
      | _ => cases h
  | channelReceive deadline => cases x <;> cases h <;> rfl
  | _ =>
      cases h
      first
        | rfl
        | exact ⟨rfl, rfl⟩

end World

/-- A connection thread with all calls of other threads that `allowed`
decides. -/
def connPlayer (allowed : Action → Prop) [DecidablePred allowed] : Player (connSystem allowed) Choice where
  respond := World.respond
  respond_exec := World.exec_of_respond
  react a s := if allowed a then some (s.act a) else none
  react_env := by
    intro a s s' h
    simp only [Option.ite_none_right_eq_some, Option.some.injEq] at h
    exact ⟨h.1, h.2.symm⟩

end NoCapKVM.Discovery
