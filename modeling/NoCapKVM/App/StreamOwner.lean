import NoCapKVM.App.AudioNonces
import NoCapKVM.App.Station
import NoCapKVM.Discovery.PlainSodium

/-! Which connection the audio stream belongs to. A stream keeps the key and the destination
that it was made with, and the pumps end it only when a frame polls no connection. -/
namespace NoCapKVM.App

open Audio Clipboard Discovery

variable {ι : Type} {na : Sodium UInt8} {stb : Stb ι} {role : Role}

/-- The stream, if there is one, has the key of the present connection, and a
Slave's packets go to its address and port. -/
def Station.OnCurrent (na : Sodium UInt8) (role : Role) (s : Station ι) : Prop :=
  ∀ info, s.Up info →
    match role with
    | .slave => s.slave.audioActive = true → ∃ channel device, s.slave.sending = some channel ∧
        channel.key = deriveAudioKey na info.audioKey ∧ s.slave.audioCapture = some ⟨some device⟩ ∧
        device.ip = info.peerIp ∧ device.port = info.peerAudioPort
    | .master => s.master.audioActive = true → ∃ channel, s.master.audioRecvChannel = some channel ∧
        channel.key = deriveAudioKey na info.audioKey

/-- The Slave of a connection is sending. -/
def hears (tcpServer : Option ConnectionInfo) : Bool :=
  tcpServer.any fun info => info.state = .connected && info.peerAudio.sendEnabled

/-- The statuses that a stream comes from: the one polled by the frame that
made its channel, and the one polled by the frame that last started the
capture. -/
structure Origin where
  keyed : Option ConnectionInfo := none
  aimed : Option ConnectionInfo := none

namespace Origin

def moved (role : Role) (s : Station ι) (o : Origin) : StationMove ι → Origin
  | .pumpAudio f _ _ =>
      match role with
      | .slave =>
          if startsStream s.slave (s.slaveFrame f) then
            { keyed := if s.slave.audioActive then o.keyed else s.polled, aimed := s.polled }
          else if s.slave.audioActive && !tearsDown s.slave (s.slaveFrame f) then o
          else {}
      | .master =>
          if hears s.polled then { keyed := if s.master.audioActive then o.keyed else s.polled } else {}
  | _ => o

/-- The status still has the key, up to derivation, and the
address and port. -/
def Current (na : Sodium UInt8) (o : Origin) (info : ConnectionInfo) : Prop :=
  (∀ k, o.keyed = some k → deriveAudioKey na k.audioKey = deriveAudioKey na info.audioKey) ∧
    ∀ a, o.aimed = some a → a.peerIp = info.peerIp ∧ a.peerAudioPort = info.peerAudioPort

end Origin

section Run

variable (na : Sodium UInt8) (stb : Stb ι) (role : Role) (platform : Platform)

def origin : List (StationMove ι) → Origin
  | [] => {}
  | m :: past => (origin past).moved role (stationRun na stb role platform past) m

/-- Whenever `pump_audio` returns. -/
def AlwaysOnCurrent : List (StationMove ι) → Prop
  | [] => True
  | .pumpAudio f early late :: past =>
      (stationRun na stb role platform (.pumpAudio f early late :: past)).OnCurrent na role ∧ AlwaysOnCurrent past
  | _ :: past => AlwaysOnCurrent past

/-- Whenever `pump_audio` returns on a connection, the stream that it has left
running comes from statuses with the key, the address and the port of that
connection. -/
def AlwaysFromCurrent : List (StationMove ι) → Prop
  | [] => True
  | .pumpAudio f early late :: past =>
      (∀ info, (stationRun na stb role platform (.pumpAudio f early late :: past)).Up info →
        (origin na stb role platform (.pumpAudio f early late :: past)).Current na info) ∧ AlwaysFromCurrent past
  | _ :: past => AlwaysFromCurrent past

end Run

/-- The stream has the key and the destination of the statuses that
it comes from. -/
def SlaveAudio.From (na : Sodium UInt8) (s : SlaveAudio) (o : Origin) : Prop :=
  ∃ k a channel device, o.keyed = some k ∧ o.aimed = some a ∧ s.sending = some channel ∧
    channel.key = deriveAudioKey na k.audioKey ∧ s.audioCapture = some ⟨some device⟩ ∧
    device.ip = a.peerIp ∧ device.port = a.peerAudioPort

structure SlaveAudio.Traced (na : Sodium UInt8) (s : SlaveAudio) (o : Origin) : Prop where
  steady : s.Steady
  running : s.audioActive = true → s.From na o
  idle : s.audioActive = false → o = {}

/-- A stream that runs has the channel of the status that it comes from. -/
theorem SlaveAudio.From.channel {s : SlaveAudio} {o : Origin} (h : s.From na o) (hSteady : s.Steady) :
    ∃ k channel, o.keyed = some k ∧ s.audioSendChannel = some channel ∧
      channel.key = deriveAudioKey na k.audioKey := by
  obtain ⟨k, -, channel, -, hKeyed, -, hSending, hKey, -⟩ := h
  exact ⟨k, channel, hKeyed, (sending_channel hSteady hSending).2, hKey⟩

/-- A frame starts a stream from the status that it polls, or restarts one
with its channel. -/
theorem from_started {s s' : SlaveAudio} {o : Origin} {info : ConnectionInfo} (h : s.Traced na o)
    (hStarted : s.Started na info s') :
    s'.From na { keyed := if s.audioActive then o.keyed else some info, aimed := some info } := by
  obtain ⟨-, hChannel, format, hCapture⟩ := hStarted
  have hSending : s'.sending = some (s.audioSendChannel.getD { key := deriveAudioKey na info.audioKey }) := by
    rw [SlaveAudio.sending, hCapture]
    exact hChannel
  cases hActive : s.audioActive with
  | true =>
      obtain ⟨k, channel, hKeyed, hOld, hKey⟩ := (h.running hActive).channel h.steady
      rw [hOld] at hSending
      exact ⟨k, info, channel, _, hKeyed, rfl, hSending, hKey, hCapture, rfl, rfl⟩
  | false =>
      rw [(h.steady.idle hActive).2] at hSending
      exact ⟨info, info, _, _, rfl, rfl, hSending, rfl, hCapture, rfl, rfl⟩

/-- Other settings leave it the stream of the same statuses. -/
theorem from_kept {s s' : SlaveAudio} {o : Origin} (h : s.From na o) (hKept : s.Kept s') : s'.From na o := by
  obtain ⟨k, a, channel, device, hKeyed, hAimed, hSending, hRest⟩ := h
  refine ⟨k, a, channel, device, hKeyed, hAimed, ?_, hRest.1, hKept.capture.trans hRest.2.1, hRest.2.2⟩
  rw [← hSending, SlaveAudio.sending, SlaveAudio.sending, hKept.capture, hKept.channel]

/-- A frame of the Slave starts its stream with the status that it polls, or
leaves the one that it finds. -/
theorem traced_frame {s : Station ι} {o : Origin} (h : s.slave.Traced na o) (f : AudioFrame)
    (early late : List ThreadOp) : (pumpSlave na (s.slaveFrame f) s.slave).1.Traced na
      (o.moved .slave s (.pumpAudio f early late)) := by
  unfold Origin.moved
  cases pumpSlave_stream na h.steady (s.slaveFrame f) with
  | started info hClient hStarts hTears hStarted =>
      have hPolled : s.polled = some info := hClient
      simp only [hStarts, if_true, hPolled]
      exact ⟨hStarted.steady, fun _ => from_started h hStarted, fun hIdle => by
        rw [hStarted.1] at hIdle
        cases hIdle⟩
  | kept hStarts hActive hTears hKept =>
      simp only [hStarts, Bool.false_eq_true, if_false, hActive, hTears, Bool.not_false, Bool.and_true, if_true]
      exact ⟨hKept.steady h.steady, fun _ => from_kept (h.running hActive) hKept, fun hIdle => by
        rw [hKept.active, hActive] at hIdle
        cases hIdle⟩
  | gone hStarts hTears hIdle =>
      have hNot : (s.slave.audioActive && !tearsDown s.slave (s.slaveFrame f)) = false := by
        cases hActive : s.slave.audioActive with
        | true => rw [hTears hActive]; rfl
        | false => rfl
      simp only [hStarts, Bool.false_eq_true, if_false, hNot]
      exact ⟨hIdle.steady, fun hRuns => (by rw [hIdle.1] at hRuns; cases hRuns), fun _ => rfl⟩

structure MasterAudio.Traced (na : Sodium UInt8) (s : MasterAudio) (o : Origin) : Prop where
  running : s.audioActive = true → ∃ k channel, o.keyed = some k ∧ s.audioRecvChannel = some channel ∧
    channel.key = deriveAudioKey na k.audioKey
  idle : s.audioActive = false → s.audioRecvChannel = none ∧ o.keyed = none
  unaimed : o.aimed = none

/-- A request to the Slave leaves the playback as it is. -/
theorem pushControl_stream (info : ConnectionInfo) (s : MasterAudio) :
    (pushControl info s).1.audioActive = s.audioActive ∧ (pushControl info s).1.audioRecvChannel = s.audioRecvChannel := by
  unfold pushControl
  cases s.audioMasterOverridden <;> cases wantSendControl s <;> exact ⟨rfl, rfl⟩

/-- So does playing packets. -/
theorem playPackets_stream (na : Sodium UInt8) (f : MasterFrame) (s : MasterAudio) :
    (playPackets na f s).1.audioActive = s.audioActive ∧
      (playPackets na f s).1.audioRecvChannel = s.audioRecvChannel := by
  unfold playPackets sampleWindows
  split
  · simp only
    split <;> exact ⟨rfl, rfl⟩
  · exact ⟨rfl, rfl⟩

/-- The end of the audio leaves no stream. -/
theorem endMasterAudio_stream {s : MasterAudio} (hIdle : s.audioActive = false → s.audioRecvChannel = none) :
    (endMasterAudio s).1.audioActive = false ∧ (endMasterAudio s).1.audioRecvChannel = none := by
  unfold endMasterAudio
  cases hActive : s.audioActive with
  | true => exact ⟨rfl, rfl⟩
  | false => exact ⟨hActive, hIdle hActive⟩

/-- Without a sending Slave there is no stream after a frame. With one there
is, with the channel that was there or one for the key that is polled. -/
theorem pumpMaster_silent (na : Sodium UInt8) {f : MasterFrame} {s : MasterAudio}
    (hIdle : s.audioActive = false → s.audioRecvChannel = none) (hHears : hears f.tcpServer = false) :
    (pumpMaster na f s).1.audioActive = false ∧ (pumpMaster na f s).1.audioRecvChannel = none := by
  unfold pumpMaster
  split
  · exact endMasterAudio_stream hIdle
  · next info hServer =>
    split
    · next hUp =>
      have hSilent : info.peerAudio.sendEnabled = false := by simpa [hears, hServer, hUp] using hHears
      obtain ⟨hActive, hChannel⟩ := pushControl_stream info s
      unfold pumpMasterConnected
      simp only [hSilent, Bool.not_false, if_true]
      apply endMasterAudio_stream
      rw [hActive, hChannel]
      exact hIdle
    · exact endMasterAudio_stream hIdle

/-- While the Slave of a connection is sending, the playback runs and its
channel stays the one it was made with. -/
theorem pumpMaster_heard (na : Sodium UInt8) {f : MasterFrame} {s : MasterAudio} {info : ConnectionInfo}
    (hRunning : s.audioActive = true → s.audioRecvChannel.isSome = true) (hServer : f.tcpServer = some info)
    (hHears : hears f.tcpServer = true) : (pumpMaster na f s).1.audioActive = true ∧
      (pumpMaster na f s).1.audioRecvChannel =
        some (s.audioRecvChannel.getD { key := deriveAudioKey na info.audioKey }) := by
  obtain ⟨hUp, hSends⟩ : info.state = .connected ∧ info.peerAudio.sendEnabled = true := by
    simpa [hears, hServer] using hHears
  obtain ⟨hActive, hChannel⟩ := pushControl_stream info s
  have hPlay := fun s => playPackets_stream na f s
  simp only [pumpMaster, hServer, hUp, if_true, pumpMasterConnected, hSends, Bool.not_true, Bool.false_eq_true, if_false,
    hPlay, hActive]
  split
  · simp only [startMasterAudio, hChannel]
    cases s.audioRecvChannel <;> exact ⟨trivial, rfl⟩
  · next hKept =>
    have hActive' : s.audioActive = true := by
      by_contra hNot
      simp [hNot] at hKept
    obtain ⟨channel, hSome⟩ := Option.isSome_iff_exists.mp (hRunning hActive')
    rw [hActive, hChannel, hSome]
    exact ⟨hActive', rfl⟩

/-- A frame of the Master makes its channel with the key of the status that it
polls, or leaves the one that it finds. -/
theorem traced_master {s : Station ι} {o : Origin} (h : s.master.Traced na o) (f : AudioFrame)
    (early late : List ThreadOp) : (pumpMaster na (s.masterFrame f) s.master).1.Traced na
      (o.moved .master s (.pumpAudio f early late)) := by
  unfold Origin.moved
  have hRunning : s.master.audioActive = true → s.master.audioRecvChannel.isSome = true := by
    intro hActive
    obtain ⟨_, channel, -, hChannel, -⟩ := h.running hActive
    rw [hChannel]
    rfl
  cases hHears : hears s.polled with
  | false =>
      obtain ⟨hActive, hChannel⟩ := pumpMaster_silent na (f := s.masterFrame f) (fun hActive => (h.idle hActive).1) hHears
      exact ⟨fun hRuns => (by rw [hActive] at hRuns; cases hRuns), fun _ => ⟨hChannel, rfl⟩, rfl⟩
  | true =>
      obtain ⟨info, hPolled⟩ : ∃ info, s.polled = some info := by
        cases hPolled : s.polled with
        | none =>
            rw [hPolled] at hHears
            cases hHears
        | some info => exact ⟨info, rfl⟩
      obtain ⟨hActive, hChannel⟩ := pumpMaster_heard na (f := s.masterFrame f) hRunning hPolled hHears
      refine ⟨fun _ => ?_, fun hIdle => (by rw [hActive] at hIdle; cases hIdle), rfl⟩
      cases hOld : s.master.audioActive with
      | true =>
          obtain ⟨k, channel, hKeyed, hSome, hKey⟩ := h.running hOld
          rw [hSome] at hChannel
          exact ⟨k, channel, hKeyed, hChannel, hKey⟩
      | false =>
          rw [(h.idle hOld).1] at hChannel
          exact ⟨info, _, hPolled, hChannel, rfl⟩

def Station.Traced (na : Sodium UInt8) (role : Role) (s : Station ι) (o : Origin) : Prop :=
  match role with
  | .slave => s.slave.Traced na o
  | .master => s.master.Traced na o

/-- Moves that leave the audio alone leave the stream where it comes from. -/
theorem traced_same {s s' : Station ι} {o : Origin} (h : s.Traced na role o) (hSlave : s'.slave = s.slave)
    (hMaster : s'.master = s.master) : s'.Traced na role o := by
  cases role with
  | slave =>
      show s'.slave.Traced na o
      rw [hSlave]
      exact h
  | master =>
      show s'.master.Traced na o
      rw [hMaster]
      exact h

/-- Every move keeps the account of where the stream comes from. -/
theorem traced_step {s : Station ι} {o : Origin} (h : s.Traced na role o) (m : StationMove ι) :
    (stationStep na stb role s m).1.Traced na role (o.moved role s m) := by
  cases m with
  | pumpAudio f early late =>
      cases role with
      | slave =>
          show (s.pumpAudio na .slave f early late).1.slave.Traced na _
          rw [Station.pumpAudio_slave]
          exact traced_frame h f early late
      | master =>
          show (s.pumpAudio na .master f early late).1.master.Traced na _
          rw [Station.pumpAudio_master]
          exact traced_master h f early late
  | pumpClipboard f written taking early late =>
      exact traced_same h (Station.slave_pumpClipboard f written taking early late s)
        (Station.master_pumpClipboard f written taking early late s)
  | editSlave sendEnabled format =>
      cases role with
      | slave => exact ⟨⟨h.steady.running, h.steady.idle⟩, h.running, h.idle⟩
      | master => exact h
  | editMaster sendEnabled format =>
      cases role with
      | slave => exact h
      | master => exact ⟨h.running, h.idle, h.unaimed⟩
  | _ => exact traced_same h rfl rfl

/-- So it is right in every run. -/
theorem traced_run (na : Sodium UInt8) (stb : Stb ι) (role : Role) (platform : Platform) (past : List (StationMove ι)) :
    (stationRun na stb role platform past).Traced na role (origin na stb role platform past) := by
  induction past with
  | nil =>
      cases role with
      | slave =>
          exact ⟨SlaveAudio.Idle.steady ⟨rfl, rfl, rfl⟩, fun hActive => (by cases hActive), fun _ => rfl⟩
      | master => exact ⟨fun hActive => (by cases hActive), fun _ => ⟨rfl, rfl⟩, rfl⟩
  | cons m past ih => exact traced_step ih m

/-- The stream is on the present connection if and only if it comes from its
statuses. -/
theorem onCurrent_iff {s : Station ι} {o : Origin} (h : s.Traced na role o) :
    s.OnCurrent na role ↔ ∀ info, s.Up info → o.Current na info := by
  apply forall_congr'
  intro info
  apply imp_congr_right
  intro _
  cases role with
  | slave =>
      cases hActive : s.slave.audioActive with
      | false =>
          rw [SlaveAudio.Traced.idle h hActive]
          exact ⟨fun _ => ⟨fun k hK => (by cases hK), fun a hA => (by cases hA)⟩, fun _ hActive => (by cases hActive)⟩
      | true =>
          obtain ⟨k, a, channel, device, hKeyed, hAimed, hSending, hKey, hCapture, hIp, hPort⟩ :=
            SlaveAudio.Traced.running h hActive
          constructor
          · intro hNow
            obtain ⟨channel', device', hSending', hKey', hCapture', hIp', hPort'⟩ := hNow rfl
            obtain rfl := Option.some.inj (hSending.symm.trans hSending')
            obtain rfl : device = device' := by
              have hSame := hCapture.symm.trans hCapture'
              cases hSame
              rfl
            refine ⟨fun k' hKeyed' => ?_, fun a' hAimed' => ?_⟩
            · obtain rfl := Option.some.inj (hKeyed.symm.trans hKeyed')
              exact hKey.symm.trans hKey'
            · obtain rfl := Option.some.inj (hAimed.symm.trans hAimed')
              exact ⟨hIp.symm.trans hIp', hPort.symm.trans hPort'⟩
          · rintro ⟨hKeys, hAims⟩ _
            exact ⟨channel, device, hSending, hKey.trans (hKeys k hKeyed), hCapture, hIp.trans (hAims a hAimed).1,
              hPort.trans (hAims a hAimed).2⟩
  | master =>
      cases hActive : s.master.audioActive with
      | false =>
          have hIdle := (MasterAudio.Traced.idle h hActive).2
          have hUnaimed := MasterAudio.Traced.unaimed h
          simp [Origin.Current, hIdle, hUnaimed]
      | true =>
          obtain ⟨k, channel, hKeyed, hChannel, hKey⟩ := MasterAudio.Traced.running h hActive
          have hUnaimed := MasterAudio.Traced.unaimed h
          simp [Origin.Current, hKeyed, hUnaimed, hChannel, hKey]

/-- The stream is always on the present connection if and only if, whenever a
frame leaves it running, it comes from statuses with the key and the
destination of that connection. -/
theorem always_on_current_iff (na : Sodium UInt8) (stb : Stb ι) (role : Role) (platform : Platform)
    (past : List (StationMove ι)) :
    AlwaysOnCurrent na stb role platform past ↔ AlwaysFromCurrent na stb role platform past := by
  induction past with
  | nil => exact Iff.rfl
  | cons m past ih =>
      cases m with
      | pumpAudio f early late => exact and_congr (onCurrent_iff (traced_run na stb role platform _)) ih
      | _ => exact ih

/-- A connection under a key, up to the Master's report of its audio port. -/
def keyedConnection (key : UInt8) : List ThreadOp :=
  [attempting, ⟨.assignStatus { state := .connected, audioKey := Bytes.fill 32 key }, rfl⟩,
    ⟨.setActiveChannel true, trivial⟩, ⟨.updateStatus (.peerAudioPort 47100), trivial⟩]

/-- The connection is lost and made again between two frames. -/
def unseenReconnect : List (StationMove Unit) :=
  .pumpAudio {} [] [] :: (performs (losing ++ keyedConnection 2) ++
    .pumpAudio {} [] [] :: (performs (keyedConnection 1) ++ [.began]))

/-- A connection that is lost and made again between two frames leaves the
stream on the old key. -/
theorem reconnect_keeps_stream : ¬ ∀ (na : Sodium UInt8) (stb : Stb Unit) (role : Role) (platform : Platform)
    (past : List (StationMove Unit)), AlwaysOnCurrent na stb role platform past := by
  intro h
  obtain ⟨channel, device, hSending, hKey, -⟩ :=
    (h plainSodium noPictures .slave .x11 unseenReconnect).1 _ ⟨rfl, rfl⟩ rfl
  have hKeys : (stationRun plainSodium noPictures .slave .x11 unseenReconnect).slave.sending.map AudioChannel.key =
      some (deriveAudioKey plainSodium (Bytes.fill 32 2)) :=
    (congrArg (Option.map AudioChannel.key) hSending).trans (congrArg some hKey)
  exact absurd hKeys (by decide +kernel)

end NoCapKVM.App
