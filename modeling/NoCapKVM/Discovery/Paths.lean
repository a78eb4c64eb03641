import NoCapKVM.Discovery.World

/-! Runs of a connection thread in which nothing fails and nobody interferes. -/
namespace NoCapKVM.Discovery

open Thread

/-- The thread gets to `p` with `stream` still to come, the trust store, the
kicked devices and the running flag being as in the beginning. -/
def Gets {α : Type} (allowed : Action → Prop) (start : ConnProg α) (w : World) (p : ConnProg α)
    (stream : List UInt8) : Prop :=
  ∃ past s, Run (connSystem allowed) start w past p s ∧ s.incoming = stream ∧
    s.knownPeers = w.knownPeers ∧ s.kicked = w.kicked ∧ s.running = w.running

/-- Operations with any answer, which do not touch what `Gets` follows. -/
def IsFree : Op → Prop
  | .loadRunning | .now | .sleepFor _ | .accept | .recvAll .. | .getPubkey _ | .remember ..
  | .loadDecision | .kickedCount _ | .kickedInsert _ | .kickedErase _ | .loadDisconnect
  | .loadHeartbeatTimeout => False
  | _ => True

namespace Gets

variable {α : Type} {allowed : Action → Prop} {start : ConnProg α} {w : World} {stream : List UInt8}

theorem begins (hStream : w.incoming = stream) : Gets allowed start w start stream :=
  ⟨[], w, .start, hStream, rfl, rfl, rfl⟩

theorem loop {σ β : Type} {x : σ} {body : σ → ConnProg (σ ⊕ β)} {next : β → ConnProg α}
    (h : Gets allowed start w (.loop x body next) stream) :
    Gets allowed start w (.unroll x body next) stream := by
  obtain ⟨past, s, hRun, hSame⟩ := h
  exact ⟨past, s, hRun.step (.loop x body next s), hSame⟩

theorem free {o : Op} {next : Ans o → ConnProg α} (h : Gets allowed start w (.op o next) stream)
    (hFree : IsFree o) (r : Ans o) : Gets allowed start w (next r) stream := by
  obtain ⟨past, s, hRun, hStream, hPeers, hKicked, hRunning⟩ := h
  have hStep : ∃ s', (connSystem allowed).exec o s r s' ∧ s'.incoming = s.incoming ∧
      s'.knownPeers = s.knownPeers ∧ s'.kicked = s.kicked ∧ s'.running = s.running := by
    cases o <;> first
      | exact hFree.elim
      | exact ⟨_, rfl, rfl, rfl, rfl, rfl⟩
  obtain ⟨s', hExec, hStream', hPeers', hKicked', hRunning'⟩ := hStep
  exact ⟨_, s', hRun.did hExec, hStream'.trans hStream, hPeers'.trans hPeers, hKicked'.trans hKicked,
    hRunning'.trans hRunning⟩

theorem now {next : Time → ConnProg α} (h : Gets allowed start w (.op .now next) stream) :
    ∃ t, Gets allowed start w (next t) stream := by
  obtain ⟨past, s, hRun, hSame⟩ := h
  exact ⟨s.clock, _, s, hRun.did ⟨Nat.le_refl _, rfl⟩, hSame⟩

theorem running {next : Bool → ConnProg α} (h : Gets allowed start w (.op .loadRunning next) stream) :
    Gets allowed start w (next w.running) stream := by
  obtain ⟨past, s, hRun, hSame⟩ := h
  exact ⟨_, s, hRun.did ⟨hSame.2.2.2.symm, rfl⟩, hSame⟩

theorem lookup {deviceId : UInt64} {next : Option (Key32 UInt8) → ConnProg α}
    (h : Gets allowed start w (.op (.getPubkey deviceId) next) stream) :
    Gets allowed start w (next (w.knownPeers.getPubkey deviceId)) stream := by
  obtain ⟨past, s, hRun, hSame⟩ := h
  exact ⟨_, s, hRun.did ⟨by rw [hSame.2.1], rfl⟩, hSame⟩

theorem kickedCount {deviceId : UInt64} {next : Bool → ConnProg α}
    (h : Gets allowed start w (.op (.kickedCount deviceId) next) stream) :
    Gets allowed start w (next (w.kicked deviceId)) stream := by
  obtain ⟨past, s, hRun, hSame⟩ := h
  exact ⟨_, s, hRun.did ⟨by rw [hSame.2.2.1], rfl⟩, hSame⟩

/-- A client with any stream may connect. -/
theorem accept {next : Option String → ConnProg α} (h : Gets allowed start w (.op .accept next) stream)
    (ip : String) (bytes : List UInt8) : Gets allowed start w (next (some ip)) bytes := by
  obtain ⟨past, s, hRun, -, hSame⟩ := h
  exact ⟨_, _, hRun.did (Or.inr ⟨ip, bytes, rfl, rfl⟩), rfl, hSame⟩

theorem recv {phase : Phase} {len : Nat} {deadline : Time}
    {next : Option (Bytes UInt8 len) → ConnProg α} (data : Bytes UInt8 len) (rest : List UInt8)
    (h : Gets allowed start w (.op (.recvAll phase len deadline) next) (data.val ++ rest)) :
    Gets allowed start w (next (some data)) rest := by
  obtain ⟨past, s, hRun, hStream, hSame⟩ := h
  exact ⟨_, _, hRun.did (Or.inl ⟨data, rest, rfl, hStream, rfl⟩), rfl, hSame⟩

/-- A message is sent and the peer's next bytes arrive. -/
theorem exchange {phase : Phase} {sent : List UInt8} {len : Nat} {deadline : Time}
    {next : Option (Bytes UInt8 len) → ConnProg α} (data : Bytes UInt8 len) (rest : List UInt8)
    (h : Gets allowed start w ((exchange phase sent len deadline).bind next) (data.val ++ rest)) :
    Gets allowed start w (next (some data)) rest :=
  recv data rest (free (o := .sendAll phase sent) h trivial true)

end Gets
end NoCapKVM.Discovery
