import NoCapKVM.Discovery.Playback

/-! The server thread together with the UI thread that commands it. -/
namespace NoCapKVM.Discovery

open Thread

/-- What the UI thread does. `look` is a call of `status()`. -/
inductive UiAction where
  | look
  | accept (fingerprint : String)
  | reject
  | disconnect
  | other (a : Action)

/-- Calls that answer nothing that the UI has shown. -/
def IsOther : Action → Prop
  | .approvePairing | .rejectPairing | .disconnectCurrent => False
  | _ => True

instance : DecidablePred IsOther
  | .approvePairing | .rejectPairing | .disconnectCurrent => .isFalse id
  | .stop | .setHeartbeatTimeout _ | .takePendingClipboard | .remember .. | .forget _ => .isTrue trivial

/-- `shown` is what the last look has returned. -/
structure Console where
  world : World
  shown : ConnectionInfo

namespace Console

/-- The buttons of a pairing request and of a connection are drawn only where
the last look has shown one. -/
def act : UiAction → Console → Console → Prop
  | .look, s, s' => s' = { s with shown := s.world.status }
  | .accept fingerprint, s, s' => (s.shown.state = .pairing ∧ s.shown.pairingFingerprint = fingerprint) ∧
      s' = { s with world := s.world.act .approvePairing }
  | .reject, s, s' => s.shown.state = .pairing ∧ s' = { s with world := s.world.act .rejectPairing }
  | .disconnect, s, s' =>
      s.shown.state = .connected ∧ s' = { s with world := s.world.act .disconnectCurrent }
  | .other a, s, s' => IsOther a ∧ s' = { s with world := s.world.act a }

end Console

def consoleSystem : System Op Ans UiAction Console where
  exec o s r s' := s.world.exec o r s'.world ∧ s'.shown = s.shown
  env := Console.act

abbrev UiLabel := Label Op Ans UiAction

def consolePlayer : Player consoleSystem Choice where
  respond o s x := (World.respond o s.world x).map fun (r, w) => (r, { s with world := w })
  respond_exec := by
    intro o s x r s' h
    obtain ⟨⟨r', w⟩, hRespond, hEq⟩ := Option.map_eq_some_iff.mp h
    obtain ⟨rfl, rfl⟩ := Prod.mk.inj hEq
    exact ⟨World.exec_of_respond hRespond, rfl⟩
  react
    | .look, s => some { s with shown := s.world.status }
    | .accept fingerprint, s =>
        if s.shown.state = .pairing ∧ s.shown.pairingFingerprint = fingerprint then
          some { s with world := s.world.act .approvePairing }
        else none
    | .reject, s =>
        if s.shown.state = .pairing then some { s with world := s.world.act .rejectPairing } else none
    | .disconnect, s =>
        if s.shown.state = .connected then some { s with world := s.world.act .disconnectCurrent } else none
    | .other a, s => if IsOther a then some { s with world := s.world.act a } else none
  react_env := by
    intro a s s' h
    cases a with
    | look => exact (Option.some.inj h).symm
    | _ =>
        simp only [Option.ite_none_right_eq_some, Option.some.injEq] at h
        exact ⟨h.1, h.2.symm⟩

end NoCapKVM.Discovery
