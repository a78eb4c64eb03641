import NoCapKVM.Discovery.AttemptPhases

/-! What a connection object shares with the main thread, and what its own thread does
to it. -/
namespace NoCapKVM.Discovery

open Thread TcpClient

/-- The members `status_`, `active_channel_` and `pending_clipboard_` of a
`TcpClient` or a `TcpServer`. -/
structure Shared where
  status : ConnectionInfo := {}
  activeChannel : Bool := false
  pendingClipboard : Option ClipboardMessage := none

namespace Shared

/-- What an operation of the thread does to it. -/
def did : Op → Shared → Shared
  | .assignStatus info, c => { c with status := info }
  | .updateStatus u, c => { c with status := u.apply c.status }
  | .setActiveChannel active, c => { c with activeChannel := active }
  | .setPendingClipboard message, c => { c with pendingClipboard := some message }
  | _, c => c

def connected (c : Shared) : Bool :=
  c.status.state = .connected

/-- `send_message` of the client and `send_input` of the server. The channel
answers `written`. -/
def send (c : Shared) (written : Bool) : Bool :=
  c.activeChannel && written

def takePendingClipboard (c : Shared) : Option ClipboardMessage × Shared :=
  (c.pendingClipboard, { c with pendingClipboard := none })

end Shared

def World.shared (s : World) : Shared where
  status := s.status
  activeChannel := s.activeChannel
  pendingClipboard := s.pendingClipboard

/-- No other operation of the thread reaches these members. -/
theorem World.exec_shared {o : Op} {s s' : World} {r : Ans o} (h : World.exec o s r s') :
    s'.shared = s.shared.did o := by
  obtain ⟨_, _, _, -, rfl⟩ := World.exec_writes h
  cases o <;> rfl

/-- A whole status is only assigned without anything that the peer has
reported. -/
def IsBare : Op → Prop
  | .assignStatus info => info.Bare
  | _ => True

/-- What a session reports of its peer it adds to the status, and it assigns a
status only at its start. -/
theorem isBare_of_session {o : Op} (h : IsSessionOp o) : IsBare o := by
  cases o with
  | assignStatus info => exact h.elim
  | _ => trivial

/-- The transfers of a handshake assign none. -/
theorem isBare_of_transfer {o : Op} (h : IsTransfer o) : IsBare o := by
  cases o with
  | assignStatus info => exact h.elim
  | _ => trivial

theorem isBare_of_wait {o : Op} (h : IsWait o) : IsBare o := by
  cases o with
  | assignStatus info => exact h.elim
  | _ => trivial

theorem isBare_of_step {o : Op} (h : IsHandshakeStep o) : IsBare o := by
  cases o with
  | assignStatus info => exact h.2
  | _ => trivial

/-- What is published for a prompt has nothing from the peer but its id and
its fingerprint. -/
theorem isBare_of_prompt {o : Op} (h : TcpServer.IsPromptOp o) : IsBare o := by
  cases o with
  | assignStatus info => exact h.2
  | _ => trivial

section Client

variable {na : Sodium UInt8} {c : TcpClient}

/-- So the session of a client begins with a bare status. -/
theorem clientSession_bare (d : UInt64) (ik : IkResult UInt8) : (c.session d ik).Uses IsBare := by
  have hRound := fun x => (TcpClient.sessionRound_uses c x).mono fun _ => isBare_of_session
  simp [TcpClient.session, IsBare, ConnectionInfo.Bare, hRound]

theorem runOnce_bare : (c.runOnce na).Uses IsBare := by
  apply c.runOnce_cases na (C := IsBare) (fun o next hO hNext => ⟨hO, hNext⟩) rfl trivial trivial
  · simp [IsBare]
  · simp [IsBare]
  · refine (handshake_steps.mono fun _ => isBare_of_step).bind fun result => ?_
    cases result with
    | error outcome => exact trivial
    | ok result => exact clientSession_bare _ _

/-- In every run of a client, a status that is assigned is bare. -/
theorem client_bare : (c.run na).Uses IsBare :=
  run_uses (fun _ => isBare_of_wait) runOnce_bare

end Client

section Server

variable {na : Sodium UInt8} {c : TcpServer} {ip : String}

open TcpServer

theorem prompt_bare (d : UInt64) (k : Key32 UInt8) : (c.prompt na ip d k).Uses IsBare :=
  (prompt_uses na c ip d k).mono fun _ => isBare_of_prompt

theorem serverPair_bare (d : UInt64) : (c.pair na ip d).Uses IsBare := by
  refine ⟨trivial, fun _ => ?_⟩
  simp only [Prog.bind_def, Prog.ret_bind]
  refine (exchange_uses trivial trivial).bind fun received => ?_
  cases received with
  | none => exact ⟨trivial, fun _ => trivial⟩
  | some k =>
      refine (prompt_bare d k).bind fun decision => ⟨trivial, fun _ => ?_⟩
      simp only [Prog.ret_bind]
      split
      · exact reset_uses (P := IsBare) trivial rfl
      · exact ⟨trivial, fun _ => trivial⟩

theorem respondIk_bare (d : UInt64) (k : Key32 UInt8) : (c.respondIk na d k).Uses IsBare :=
  respondIk_uses (fun _ o => (ikOp_uses o).mono fun _ => isBare_of_transfer) trivial (fun _ => trivial) trivial rfl d k

/-- The handshake of a server assigns bare statuses only. -/
theorem serverHandshake_bare : (c.handshake na ip).Uses IsBare := by
  refine ⟨trivial, fun _ => ?_⟩
  simp only [Prog.bind_def, Prog.ret_bind]
  refine (exchange_uses trivial trivial).bind fun received => ?_
  cases received with
  | none => exact ⟨trivial, fun _ => trivial⟩
  | some id =>
      refine ⟨trivial, fun trustedPubkey => ⟨trivial, fun _ => ?_⟩⟩
      simp only [Prog.ret_bind]
      refine (exchange_uses trivial trivial).bind fun received => ?_
      cases received with
      | none => exact ⟨trivial, fun _ => trivial⟩
      | some flag =>
          have hPair : ((c.pair na ip (decodeDeviceId id)).bind (c.respondAfter na (decodeDeviceId id))).Uses IsBare := by
            refine (serverPair_bare _).bind fun result => ?_
            cases result with
            | none => exact trivial
            | some k => exact respondIk_bare _ k
          exact branch_cases na c ip _ trustedPubkey (flag.only != 0) (P := (Prog.Uses IsBare ·)) hPair
            fun k _ _ => respondIk_bare _ k

theorem reapprove_bare (d : UInt64) (ik : IkResult UInt8) : (c.reapprove na ip d ik).Uses IsBare := by
  refine ⟨trivial, fun kicked => ?_⟩
  cases kicked with
  | false => exact trivial
  | true =>
      refine (prompt_bare d ik.peerStatic).bind fun decision => ?_
      split
      · exact ⟨trivial, fun _ => reset_uses (P := IsBare) trivial rfl⟩
      · exact ⟨trivial, fun _ => trivial⟩

/-- So does its session. -/
theorem serverSession_bare (d : UInt64) (ik : IkResult UInt8) : (c.session ip d ik).Uses IsBare := by
  apply c.session_cases (fun _ => isBare_of_session) (fun _ => trivial) trivial trivial rfl trivial
  exact fun next hNext => ⟨rfl, hNext⟩

theorem serve_bare : (c.serve na ip).Uses IsBare := by
  refine serverHandshake_bare.bind fun result => ?_
  cases result with
  | none => exact trivial
  | some result =>
      refine ⟨trivial, fun _ => (reapprove_bare _ _).bind fun approved => ?_⟩
      cases approved with
      | none => exact trivial
      | some _ => exact serverSession_bare _ _

/-- In every run of a server, a status that is assigned is bare. -/
theorem server_bare : (c.run na).Uses IsBare := by
  refine ⟨fun _ => ⟨trivial, fun running => ?_⟩, fun _ => trivial⟩
  cases running with
  | false => exact trivial
  | true =>
      refine ⟨trivial, fun readable => ?_⟩
      cases readable with
      | false => exact trivial
      | true =>
          refine ⟨trivial, fun accepted => ?_⟩
          cases accepted with
          | none => exact trivial
          | some ip => exact serve_bare.bind fun _ => trivial

end Server
end NoCapKVM.Discovery
