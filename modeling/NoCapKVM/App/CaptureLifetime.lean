import Mathlib.Data.List.Induction
import NoCapKVM.App.AudioNonces
import NoCapKVM.App.AudioPlayback
import NoCapKVM.Discovery.PlainSodium
import NoCapKVM.EventLog.Throughout

/-! What the capture callback of a Slave points to, from the frames of the pump to the
destruction of `AppState` at the end of `main`. -/
namespace NoCapKVM.App

open Audio Discovery EventLog

/-- The socket behind the channel that was made last. `invalid` is
`kInvalidSocket`. -/
inductive SocketHandle where
  | invalid
  | opened
  | closed
  deriving DecidableEq

inductive LifeEvent where
  | socketCreated (made : Bool)
  | socketClosed
  | channelMade
  | channelDestroyed
  | deviceStarted
  | deviceStopped
  deriving DecidableEq

/-- Channels are told apart by the order they were made in. `capture` is the
pointer in the callback of a running device. -/
structure Lifetimes where
  channels : Nat := 0
  channel : Option Nat := none
  socket : SocketHandle := .closed
  capture : Option (Option Nat) := none

namespace Lifetimes

def on (l : Lifetimes) : LifeEvent → Lifetimes
  | .socketCreated made => { l with socket := if made then .opened else .invalid }
  | .socketClosed => { l with socket := .closed }
  | .channelMade => { l with channel := some l.channels, channels := l.channels + 1 }
  | .channelDestroyed => { l with channel := none }
  | .deviceStarted => { l with capture := some l.channel }
  | .deviceStopped => { l with capture := none }

def after (l : Lifetimes) (events : List LifeEvent) : Lifetimes :=
  events.foldl on l

/-- `unmade` says whether a socket that could not be made in the first place
counts as one that is still there. -/
def SocketAlive (unmade : Bool) : SocketHandle → Prop
  | .invalid => unmade = true
  | .opened => True
  | .closed => False

/-- If the device runs, the channel its callback points to has not been
destroyed, and the socket of that channel not been closed. -/
def Alive (unmade : Bool) (l : Lifetimes) : Prop :=
  ∀ pointer, l.capture = some pointer →
    pointer.isSome = true ∧ l.channel = pointer ∧ SocketAlive unmade l.socket

end Lifetimes

def AudioEffect.life? (socketMade : Bool) : AudioEffect → Option LifeEvent
  | .createSocket => some (.socketCreated socketMade)
  | .closeSocket => some .socketClosed
  | .createChannel _ => some .channelMade
  | .destroyChannel => some .channelDestroyed
  | .startCapture _ started => if started then some .deviceStarted else none
  | .stopCapture => some .deviceStopped
  | .destroyCapture => some .deviceStopped
  | .sendMessage _ _ => none
  | .log _ => none

def lives (socketMade : Bool) (effects : List AudioEffect) : List LifeEvent :=
  effects.filterMap (AudioEffect.life? socketMade)

/-- The audio members of `AppState`. `audio_active` is one member, which both
pumps use. -/
structure AppAudio where
  slave : SlaveAudio := {}
  master : MasterAudio := {}

/-- A frame of `pump_audio` in the role of that frame, or an edit of the
settings. -/
inductive AppFrame where
  | slave (f : SlaveFrame)
  | master (f : MasterFrame)
  | edit (sendEnabled : Bool) (format : AudioFormat)

/-- Members of `AppState` that own something, and the socket, in the order of
their declaration. -/
inductive Member where
  | announcer
  | listener
  | tcpServer
  | tcpClient
  | audioPlayback
  | audioRecvChannel
  | audioCapture
  | audioSendChannel
  | audioSendSocket
  deriving DecidableEq

def members : List Member :=
  [.announcer, .listener, .tcpServer, .tcpClient, .audioPlayback, .audioRecvChannel, .audioCapture,
    .audioSendChannel, .audioSendSocket]

/-- What `main` resets after its loop. -/
def shutdownResets : List Member :=
  [.announcer, .listener, .tcpServer, .tcpClient]

namespace AppAudio

/-- What the destructor of a member ends. That of a capture stops its device,
and a socket is a number, which has none. -/
def destroy (s : AppAudio) : Member → List LifeEvent
  | .audioCapture => if s.slave.audioCapture.isSome then [.deviceStopped] else []
  | .audioSendChannel => if s.slave.audioSendChannel.isSome then [.channelDestroyed] else []
  | _ => []

/-- `main` after its loop: its resets, and then the members of `state` from
the last to the first. -/
def shutdown (s : AppAudio) : List LifeEvent :=
  shutdownResets.flatMap s.destroy ++ members.reverse.flatMap s.destroy

variable (na : Sodium UInt8)

def step (s : AppAudio) : AppFrame → AppAudio × List LifeEvent
  | .slave f =>
      let (slave, effects) := pumpSlave na f s.slave
      ({ slave := slave, master := { s.master with audioActive := slave.audioActive } }, lives f.socketMade effects)
  | .master f =>
      let (master, _) := pumpMaster na f s.master
      ({ slave := { s.slave with audioActive := master.audioActive }, master := master }, [])
  | .edit sendEnabled format =>
      ({ s with slave := { s.slave with audioSendEnabled := sendEnabled, audioDesiredFormat := format } }, [])

def run (s : AppAudio) : List AppFrame → AppAudio × List LifeEvent
  | [] => (s, [])
  | frame :: frames =>
      let rest := (s.step na frame).1.run frames
      (rest.1, (s.step na frame).2 ++ rest.2)

/-- One more frame comes after the run of the frames before it. -/
theorem run_concat (s : AppAudio) (frames : List AppFrame) (frame : AppFrame) :
    s.run na (frames ++ [frame]) =
      (((s.run na frames).1.step na frame).1, (s.run na frames).2 ++ ((s.run na frames).1.step na frame).2) := by
  induction frames generalizing s with
  | nil => simp [run]
  | cons first frames ih => simp only [List.cons_append, run, ih, List.append_assoc]

end AppAudio

open Lifetimes

/-- Between frames the device runs if there is a capture, with the channel
that is there. -/
structure SlaveAudio.Matches (s : SlaveAudio) (l : Lifetimes) : Prop where
  running : s.audioCapture.isSome = true → l.capture = some l.channel ∧ l.channel.isSome = true
  silent : s.audioCapture.isSome = false → l.capture = none
  channel : l.channel.isSome = s.audioSendChannel.isSome
  socket : s.audioSendChannel.isSome = true → l.socket = if s.audioSendSocket then .opened else .invalid

/-- Nothing that the lifetimes depend on has changed. -/
theorem SlaveAudio.Matches.of_eq {s s' : SlaveAudio} {l : Lifetimes} (h : s.Matches l)
    (hCapture : s'.audioCapture = s.audioCapture) (hChannel : s'.audioSendChannel = s.audioSendChannel)
    (hSocket : s'.audioSendSocket = s.audioSendSocket) : s'.Matches l where
  running := hCapture ▸ h.running
  silent := hCapture ▸ h.silent
  channel := hChannel ▸ h.channel
  socket := hChannel ▸ hSocket ▸ h.socket

/-- A device that is stopped can do no harm. -/
theorem alive_of_silent {unmade : Bool} {l : Lifetimes} (h : l.capture = none) : Alive unmade l := by
  intro pointer hRunning
  rw [h] at hRunning
  cases hRunning

/-- From the lifetimes `l` the events lead to those that match `s`, and every
step of them is safe if `ok` holds. -/
structure Leads (unmade : Bool) (l : Lifetimes) (events : List LifeEvent) (s : SlaveAudio) (ok : Prop) : Prop where
  matching : s.Matches (l.after events)
  alive : Alive unmade l → (Throughout on (Alive unmade) l events ↔ ok)

variable {unmade : Bool} {na : Sodium UInt8}

/-- Without an event everything stays as it matches. -/
theorem leads_nothing {s : SlaveAudio} {l : Lifetimes} (h : s.Matches l) : Leads unmade l [] s True :=
  ⟨h, fun hAlive => iff_of_true hAlive trivial⟩

/-- A change of the other members of the state does not matter. -/
theorem leads_of_eq {s s' : SlaveAudio} {l : Lifetimes} {events : List LifeEvent} {ok : Prop}
    (h : Leads unmade l events s ok) (hCapture : s'.audioCapture = s.audioCapture)
    (hChannel : s'.audioSendChannel = s.audioSendChannel) (hSocket : s'.audioSendSocket = s.audioSendSocket) :
    Leads unmade l events s' ok :=
  ⟨h.matching.of_eq hCapture hChannel hSocket, h.alive⟩

theorem Leads.congr {s : SlaveAudio} {l : Lifetimes} {events : List LifeEvent} {ok ok' : Prop}
    (h : Leads unmade l events s ok) (hOk : ok ↔ ok') : Leads unmade l events s ok' :=
  ⟨h.matching, fun hAlive => (h.alive hAlive).trans hOk⟩

/-- Without a device every step is safe until one is started. -/
theorem throughout_silent (unmade : Bool) {l : Lifetimes} (h : l.capture = none) {events : List LifeEvent}
    (hStarts : .deviceStarted ∉ events) :
    Throughout on (Alive unmade) l events ∧ (l.after events).capture = none := by
  induction events generalizing l with
  | nil => exact ⟨alive_of_silent h, h⟩
  | cons event events ih =>
      have hOn : (l.on event).capture = none := by
        cases event with
        | deviceStarted => exact absurd List.mem_cons_self hStarts
        | deviceStopped => rfl
        | _ => exact h
      obtain ⟨hRest, hLast⟩ := ih hOn fun hMem => hStarts (List.mem_cons_of_mem event hMem)
      exact ⟨⟨alive_of_silent h, hRest⟩, hLast⟩

/-- The part of a frame that stops the device, if there is one. -/
def stopped (s : SlaveAudio) : List LifeEvent :=
  if s.audioCapture.isSome then [.deviceStopped, .deviceStopped] else []

/-- The first part of a stop ends the device and leaves the channel. -/
theorem after_stopped {s : SlaveAudio} {l : Lifetimes} (h : s.Matches l) :
    l.after (stopped s) = { l with capture := none } := by
  unfold stopped
  cases hCapture : s.audioCapture.isSome with
  | true => rfl
  | false =>
      have hSilent := h.silent hCapture
      obtain ⟨channels, channel, socket, capture⟩ := l
      cases hSilent
      rfl

/-- So the callback points to a living channel until the device is stopped. -/
theorem throughout_stopped {s : SlaveAudio} {l : Lifetimes} (hAlive : Alive unmade l) :
    Throughout on (Alive unmade) l (stopped s) := by
  unfold stopped
  cases s.audioCapture.isSome with
  | true => exact ⟨hAlive, alive_of_silent rfl, alive_of_silent rfl⟩
  | false => exact hAlive

/-- After the device has been stopped, events without a start are safe. -/
theorem throughout_stop {s : SlaveAudio} {l : Lifetimes} (h : s.Matches l) (hAlive : Alive unmade l)
    {events : List LifeEvent} (hStarts : .deviceStarted ∉ events) :
    Throughout on (Alive unmade) l (stopped s ++ events) := by
  apply (throughout_append l (stopped s) events).mpr
  refine ⟨throughout_stopped hAlive, ?_⟩
  change Throughout on (Alive unmade) (l.after (stopped s)) events
  rw [after_stopped h]
  exact (throughout_silent unmade rfl hStarts).1

/-- The rest of `stop_slave_audio`. -/
def tornDown (s : SlaveAudio) : List LifeEvent :=
  (if s.audioSendChannel.isSome then [.channelDestroyed] else []) ++ if s.audioSendSocket then [.socketClosed] else []

/-- A stop ends the device before it takes down the channel and the socket. -/
theorem lives_stop (s : SlaveAudio) (made : Bool) : lives made (stopSlaveAudio s).2 = stopped s ++ tornDown s := by
  unfold stopSlaveAudio lives stopped tornDown
  cases s.audioCapture.isSome <;> cases s.audioSendChannel.isSome <;> cases s.audioSendSocket <;>
    cases s.audioActive <;> rfl

/-- Taking down the channel and the socket starts no device. -/
theorem not_mem_tornDown (s : SlaveAudio) : .deviceStarted ∉ tornDown s := by
  unfold tornDown
  cases s.audioSendChannel.isSome <;> cases s.audioSendSocket <;> decide

/-- `stop_slave_audio` stops the device first. -/
theorem leads_stop {s : SlaveAudio} {l : Lifetimes} (h : s.Matches l) (made : Bool) :
    Leads unmade l (lives made (stopSlaveAudio s).2) (stopSlaveAudio s).1 True := by
  have hNone : ((l.after (stopped s)).after (tornDown s)).capture = none := by
    rw [after_stopped h]
    exact (throughout_silent unmade rfl (not_mem_tornDown s)).2
  have hChannel : ((l.after (stopped s)).after (tornDown s)).channel = none := by
    rw [after_stopped h]
    have hSame := h.channel
    unfold tornDown
    cases hSend : s.audioSendChannel.isSome with
    | true => cases s.audioSendSocket <;> rfl
    | false =>
        rw [hSend] at hSame
        cases s.audioSendSocket <;> exact Option.not_isSome_iff_eq_none.mp (Bool.eq_false_iff.mp hSame)
  rw [lives_stop]
  refine ⟨⟨nofun, ?_, ?_, nofun⟩, fun hAlive => iff_of_true (throughout_stop h hAlive (not_mem_tornDown s)) trivial⟩
  · intro _
    rw [after, List.foldl_append]
    exact hNone
  · rw [after, List.foldl_append]
    exact congrArg Option.isSome hChannel

/-- `if (!state.audio_send_channel) { ... }` -/
def connected (s : SlaveAudio) (f : SlaveFrame) : List LifeEvent :=
  if s.audioSendChannel.isSome then [] else [.socketCreated f.socketMade, .channelMade]

/-- The socket behind the channel of a start could be made, now or when the
channel was. -/
def hasSocket (s : SlaveAudio) (f : SlaveFrame) : Bool :=
  if s.audioSendChannel.isSome then s.audioSendSocket else f.socketMade

/-- Nor does setting them up. -/
theorem not_mem_connected (s : SlaveAudio) (f : SlaveFrame) : .deviceStarted ∉ connected s f := by
  unfold connected
  cases s.audioSendChannel.isSome <;> cases f.socketMade <;> decide

/-- There is a channel now, and no device. -/
theorem after_connected {s : SlaveAudio} {l : Lifetimes} (h : s.Matches l) (f : SlaveFrame) :
    let m := (l.after (stopped s)).after (connected s f)
    m.capture = none ∧ m.channel.isSome = true ∧ m.socket = if hasSocket s f then .opened else .invalid := by
  intro m
  have hM : m = ({ l with capture := none } : Lifetimes).after (connected s f) :=
    congrArg (Lifetimes.after · (connected s f)) (after_stopped h)
  rw [hM]
  unfold connected hasSocket
  cases hChannel : s.audioSendChannel.isSome with
  | true => exact ⟨rfl, h.channel.trans hChannel, h.socket hChannel⟩
  | false => exact ⟨rfl, rfl, rfl⟩

section Start

variable {info : ConnectionInfo} {f : SlaveFrame} {formatChanged : Bool} {s : SlaveAudio} {l : Lifetimes}

/-- A start that succeeds stops the device, sets up the channel if there is
none, and only then starts the device again. -/
theorem lives_start (hStarted : f.started = true) :
    lives f.socketMade (startSlaveAudio na info f formatChanged s).2 = stopped s ++ connected s f ++ [.deviceStarted] := by
  cases hCapture : s.audioCapture <;> cases hChannel : s.audioSendChannel <;>
    simp [startSlaveAudio, makeChannel, lives, stopped, connected, AudioEffect.life?, hStarted, hCapture, hChannel]

/-- What a start that fails leaves to `stop_slave_audio`. -/
theorem lives_failed (na : Sodium UInt8) (info : ConnectionInfo) (formatChanged : Bool) (s : SlaveAudio)
    (hStarted : f.started = false) :
    ∃ events, .deviceStarted ∉ events ∧
      lives f.socketMade (startSlaveAudio na info f formatChanged s).2 =
        stopped s ++ (connected s f ++ events ++ [.channelDestroyed] ++ if hasSocket s f then [.socketClosed] else []) := by
  refine ⟨[.deviceStopped, .deviceStopped], by decide, ?_⟩
  have hStop := fun s => lives_stop s f.socketMade
  unfold lives at hStop ⊢
  cases hCapture : s.audioCapture <;> cases hChannel : s.audioSendChannel <;>
    cases s.audioSlaveStartBackoff.failureLogged <;>
    simp [startSlaveAudio, makeChannel, stopped, tornDown, connected, hasSocket, AudioEffect.life?, RetryBackoff.onFailure,
      hStarted, hCapture, hChannel, hStop]

/-- After a start the socket is the one that was made now or with
the channel. -/
theorem audioSendSocket_started (hStarted : f.started = true) :
    (startSlaveAudio na info f formatChanged s).1.audioSendSocket = hasSocket s f := by
  cases hChannel : s.audioSendChannel <;> simp [startSlaveAudio, makeChannel, hasSocket, hStarted, hChannel]

/-- So a successful start is safe in every step if its socket
could be made. -/
theorem leads_started (h : s.Matches l) (hStarted : f.started = true) :
    Leads unmade l (lives f.socketMade (startSlaveAudio na info f formatChanged s).2)
      (startSlaveAudio na info f formatChanged s).1 (unmade = true ∨ hasSocket s f = true) := by
  let m := (l.after (stopped s)).after (connected s f)
  obtain ⟨hSilent, hSome, hSocket⟩ := after_connected h f
  obtain ⟨-, hChannel, format, hCapture⟩ : s.Started na info (startSlaveAudio na info f formatChanged s).1 :=
    startSlaveAudio_started hStarted
  have hAfter : l.after (stopped s ++ connected s f ++ [.deviceStarted]) = { m with capture := some m.channel } := by
    rw [after, List.foldl_append, List.foldl_append]
    rfl
  rw [lives_start hStarted]
  refine ⟨⟨fun _ => ?_, fun hNone => ?_, ?_, fun _ => ?_⟩, fun hAlive => ?_⟩
  · rw [hAfter]
    exact ⟨rfl, hSome⟩
  · rw [hCapture] at hNone
    cases hNone
  · rw [hAfter, hChannel]
    exact hSome
  · rw [hAfter, audioSendSocket_started hStarted]
    exact hSocket
  · -- only the start itself is in doubt, and that by the socket alone
    have hBefore := throughout_stop h hAlive (not_mem_connected s f)
    rw [throughout_append, and_iff_right hBefore]
    rw [List.foldl_append]
    change Alive unmade m ∧ Alive unmade { m with capture := some m.channel } ↔ _
    rw [and_iff_right (alive_of_silent hSilent)]
    have hLive : SocketAlive unmade m.socket ↔ unmade = true ∨ hasSocket s f = true := by
      rw [hSocket]
      cases hasSocket s f <;> simp [SocketAlive]
    rw [← hLive]
    constructor
    · intro hM
      exact (hM m.channel rfl).2.2
    · rintro hM pointer hPointer
      cases hPointer
      exact ⟨hSome, rfl, hM⟩

/-- A start that fails leaves no device, and is safe without a condition. -/
theorem leads_failed (h : s.Matches l) (hStarted : f.started = false) :
    Leads unmade l (lives f.socketMade (startSlaveAudio na info f formatChanged s).2)
      (startSlaveAudio na info f formatChanged s).1 True := by
  obtain ⟨-, hCapture, hChannel⟩ : (startSlaveAudio na info f formatChanged s).1.Idle := startSlaveAudio_failed hStarted
  obtain ⟨events, hEvents, hLives⟩ := lives_failed na info formatChanged s hStarted
  have hStarts : .deviceStarted ∉
      connected s f ++ events ++ [.channelDestroyed] ++ if hasSocket s f then [.socketClosed] else [] := by
    have hConnected := not_mem_connected s f
    cases hasSocket s f <;> simp [hConnected, hEvents]
  rw [hLives]
  refine ⟨⟨fun hSome => ?_, fun _ => ?_, ?_, fun hSome => ?_⟩,
    fun hAlive => iff_of_true (throughout_stop h hAlive hStarts) trivial⟩
  · rw [hCapture] at hSome
    cases hSome
  · rw [after, List.foldl_append]
    change ((l.after (stopped s)).after _).capture = none
    rw [after_stopped h]
    exact (throughout_silent unmade rfl hStarts).2
  · rw [hChannel, after, ← List.append_assoc, ← List.append_assoc, List.foldl_append, List.foldl_append]
    cases hasSocket s f <;> rfl
  · rw [hChannel] at hSome
    cases hSome

/-- Either way the device has a channel, and a socket if one could be made. -/
theorem leads_start (h : s.Matches l) :
    Leads unmade l (lives f.socketMade (startSlaveAudio na info f formatChanged s).2)
      (startSlaveAudio na info f formatChanged s).1
      (f.started = true → unmade = true ∨ hasSocket s f = true) := by
  cases hStarted : f.started with
  | true => exact (leads_started h hStarted).congr (by simp)
  | false => exact (leads_failed h hStarted).congr (by simp)

end Start

theorem lives_append (made : Bool) (effects more : List AudioEffect) :
    lives made (effects ++ more) = lives made effects ++ lives made more :=
  List.filterMap_append

/-- Reporting the status ends nothing. -/
theorem lives_report (made : Bool) (s : SlaveAudio) : lives made (reportStatus s).2 = [] := by
  unfold reportStatus
  split <;> rfl

/-- Ending the audio leaves neither a device nor a channel, in the
order of a stop. -/
theorem leads_end {s : SlaveAudio} {l : Lifetimes} (h : s.Matches l) (made : Bool) :
    Leads unmade l (lives made (endSlaveAudio s).2) (endSlaveAudio s).1 True := by
  unfold endSlaveAudio
  split
  · exact leads_of_eq (leads_stop h made) rfl rfl rfl
  · exact leads_nothing h

/-- A frame that starts the device has a socket for it. -/
def SocketOk (unmade : Bool) (s : SlaveAudio) (f : SlaveFrame) : Prop :=
  startsStream s f = true → unmade = true ∨ hasSocket s f = true

/-- A frame that starts nothing needs no socket. -/
theorem Leads.idle {s s' : SlaveAudio} {f : SlaveFrame} {l : Lifetimes} {events : List LifeEvent}
    (h : Leads unmade l events s' True) (hStarts : startsStream s f = false) :
    Leads unmade l events s' (SocketOk unmade s f) := by
  apply h.congr
  refine iff_of_true trivial ?_
  intro hStart
  rw [hStarts] at hStart
  cases hStart

/-- Every frame of a Slave is safe in each of its steps, if the device that it
starts has a socket. -/
theorem leads_frame {s : SlaveAudio} {l : Lifetimes} (h : s.Matches l) (f : SlaveFrame) :
    Leads unmade l (lives f.socketMade (pumpSlave na f s).2) (pumpSlave na f s).1 (SocketOk unmade s f) := by
  cases hClient : f.tcpClient with
  | none =>
      simp only [pumpSlave, hClient]
      refine Leads.idle (leads_of_eq (leads_end h _) rfl rfl rfl) ?_
      simp [startsStream, hClient]
  | some info =>
      by_cases hUp : info.state = .connected
      · have hStarts := startsStream_connected (s := s) hClient hUp
        obtain ⟨sendEnabled, format, seq, hWanted⟩ := applyMasterControl_eq info s
        obtain ⟨_, _, _, hReported⟩ := reportStatus_fst (applyMasterControl info s)
        have hNone := lives_report f.socketMade (applyMasterControl info s)
        have hReacts := pumpSlaveConnected_reacts na info f s
        simp only [hWanted] at hStarts hReported hNone
        simp only [hWanted, hReported] at hReacts
        simp only [pumpSlave, hClient, hUp, if_true]
        generalize pumpSlaveConnected na info f s = r at hReacts ⊢
        cases hReacts with
        | unwanted hUnwanted =>
            rw [lives_append, hNone, List.nil_append]
            refine Leads.idle (leads_of_eq (leads_end ?_ _) rfl rfl rfl) ?_
            · exact h.of_eq rfl rfl rfl
            · rcases hUnwanted with hOff | hPort
              · simp [hStarts, show sendEnabled = false from hOff]
              · simp [hStarts, hPort]
        | unchanged hSend hPort hActive hFormat =>
            rw [hNone]
            refine Leads.idle (leads_of_eq (leads_nothing h) rfl rfl rfl) ?_
            simp_all
        | waiting hSend hPort hChanged hWait =>
            rw [hNone]
            refine Leads.idle (leads_of_eq (leads_nothing h) rfl rfl rfl) ?_
            simp_all
        | starting formatChanged hSend hPort hChanged hAttempt =>
            rw [lives_append, hNone, List.nil_append]
            refine Leads.congr (leads_start ?_) ?_
            · exact h.of_eq rfl rfl rfl
            have hStart : startsStream s f = f.started := by
              cases hActive : s.audioActive <;> simp_all
            unfold SocketOk
            rw [hStart]
            rfl
      · simp only [pumpSlave, hClient, hUp, if_false]
        refine Leads.idle (leads_of_eq (leads_end h _) rfl rfl rfl) ?_
        simp [startsStream, hClient, hUp]

/-- Every start in the run has a socket. -/
def SocketsMade (na : Sodium UInt8) (unmade : Bool) (frames : List AppFrame) : Prop :=
  ∀ before f after, frames = before ++ .slave f :: after →
    SocketOk unmade (({} : AppAudio).run na before).1.slave f

/-- A run has its sockets if the frames before the last one have them and the
last one has. -/
theorem socketsMade_concat (frames : List AppFrame) (frame : AppFrame) :
    SocketsMade na unmade (frames ++ [frame]) ↔ SocketsMade na unmade frames ∧
      ∀ f, frame = .slave f → SocketOk unmade (({} : AppAudio).run na frames).1.slave f := by
  constructor
  · intro h
    refine ⟨fun before f after hEq => ?_, fun f hFrame => ?_⟩
    · exact h before f (after ++ [frame]) (by rw [hEq, List.append_assoc, List.cons_append])
    · exact h frames f [] (by rw [hFrame])
  · rintro ⟨hFrames, hLast⟩ before f after hEq
    rcases List.eq_nil_or_concat after with rfl | ⟨after, last, rfl⟩
    · obtain ⟨rfl, hSame⟩ := List.append_inj' hEq rfl
      exact hLast f (List.cons.inj hSame).1
    · rw [List.concat_eq_append, ← List.cons_append, ← List.append_assoc] at hEq
      exact hFrames before f after (List.append_inj_left' hEq rfl)

/-- So is every frame in either role, and every edit of the settings. -/
theorem leads_step (na : Sodium UInt8) (unmade : Bool) {s : AppAudio} {l : Lifetimes} (h : s.slave.Matches l)
    (frame : AppFrame) :
    Leads unmade l (s.step na frame).2 (s.step na frame).1.slave
      (∀ f, frame = .slave f → SocketOk unmade s.slave f) := by
  cases frame with
  | slave f =>
      apply (leads_frame h f).congr
      constructor
      · rintro hOk _ ⟨⟩
        exact hOk
      · intro hOk
        exact hOk f rfl
  | master f =>
      refine Leads.congr (leads_of_eq (leads_nothing h) rfl rfl rfl) (iff_of_true trivial ?_)
      rintro _ ⟨⟩
  | edit sendEnabled format =>
      refine Leads.congr (leads_of_eq (leads_nothing h) rfl rfl rfl) (iff_of_true trivial ?_)
      rintro _ ⟨⟩

/-- At first there is no device and no channel. -/
theorem matches_initial : ({} : SlaveAudio).Matches {} :=
  ⟨nofun, fun _ => rfl, rfl, nofun⟩

/-- And so is every run. -/
theorem leads_run (na : Sodium UInt8) (unmade : Bool) (frames : List AppFrame) :
    Leads unmade {} (({} : AppAudio).run na frames).2 (({} : AppAudio).run na frames).1.slave
      (SocketsMade na unmade frames) := by
  have hInitial : Alive unmade {} := alive_of_silent rfl
  induction frames using List.reverseRecOn with
  | nil => exact (leads_nothing matches_initial).congr (iff_of_true trivial fun _ _ _ hEq => by simp at hEq)
  | append_singleton frames frame ih =>
      have hStep := leads_step na unmade ih.matching frame
      rw [AppAudio.run_concat]
      refine ⟨?_, fun _ => ?_⟩
      · rw [after, List.foldl_append]
        exact hStep.matching
      · rw [throughout_append, ih.alive hInitial, socketsMade_concat]
        constructor
        · rintro ⟨hFrames, hRest⟩
          have hAlive := ((ih.alive hInitial).mpr hFrames).last
          exact ⟨hFrames, (hStep.alive hAlive).mp hRest⟩
        · rintro ⟨hFrames, hLast⟩
          have hAlive := ((ih.alive hInitial).mpr hFrames).last
          exact ⟨hFrames, (hStep.alive hAlive).mpr hLast⟩

/-- After the loop the channel is destroyed before the device is stopped,
because the members are destroyed from the last to the first. -/
theorem shutdown_eq (s : AppAudio) :
    s.shutdown = (if s.slave.audioSendChannel.isSome then [.channelDestroyed] else []) ++
      if s.slave.audioCapture.isSome then [.deviceStopped] else [] := by
  simp [AppAudio.shutdown, shutdownResets, members, AppAudio.destroy]

/-- The channel is declared after the capture, and so it goes first. -/
theorem throughout_shutdown (unmade : Bool) {s : AppAudio} {l : Lifetimes} (h : s.slave.Matches l) :
    Throughout on (Alive unmade) l s.shutdown ↔ s.slave.audioCapture = none := by
  rw [shutdown_eq]
  cases hCapture : s.slave.audioCapture with
  | none =>
      refine iff_of_true ?_ rfl
      have hSilent := h.silent (by rw [hCapture]; rfl)
      refine (throughout_silent unmade hSilent ?_).1
      cases s.slave.audioSendChannel.isSome <;> decide
  | some capture =>
      refine iff_of_false ?_ nofun
      obtain ⟨hRunning, hSome⟩ := h.running (by rw [hCapture]; rfl)
      rw [h.channel] at hSome
      rw [if_pos hSome]
      rintro ⟨-, hGone, -⟩
      have hDead := hGone l.channel hRunning
      rw [← hDead.2.1] at hDead
      cases hDead.1

/-- Up to the destruction of `AppState` the channel and the socket outlive
every running capture, for as long as no capture is running when `main` leaves
its loop. A start without a socket counts only if a socket that was never made
is not taken for one that is there. -/
theorem capture_lifetime_iff (na : Sodium UInt8) (unmade : Bool) (frames : List AppFrame) :
    let r := ({} : AppAudio).run na frames
    Throughout on (Alive unmade) {} (r.2 ++ r.1.shutdown) ↔
      SocketsMade na unmade frames ∧ r.1.slave.audioCapture = none := by
  intro r
  have hRun := leads_run na unmade frames
  have hMade := hRun.alive (alive_of_silent rfl)
  rw [throughout_append, hMade]
  constructor
  · rintro ⟨hFrames, hEnd⟩
    exact ⟨hFrames, (throughout_shutdown unmade hRun.matching).mp hEnd⟩
  · rintro ⟨hFrames, hNone⟩
    exact ⟨hFrames, (throughout_shutdown unmade hRun.matching).mpr hNone⟩

/-- A Slave that is capturing when its user quits. -/
def quitWhileSending : List AppFrame :=
  [.slave { tcpClient := some { state := .connected, peerAudioPort := 47001 } }]

/-- The channel is destroyed under the running device. -/
theorem capture_outlives_channel :
    let r := ({} : AppAudio).run plainSodium quitWhileSending
    ¬ Throughout on (Alive true) {} (r.2 ++ r.1.shutdown) := by
  intro r hThroughout
  have hEnd := ((throughout_append _ r.2 r.1.shutdown).mp hThroughout).2
  have hNone := (throughout_shutdown true (leads_run plainSodium true quitWhileSending).matching).mp hEnd
  have hSome : r.1.slave.audioCapture.isSome = true := by decide +kernel
  rw [hNone] at hSome
  cases hSome

end NoCapKVM.App
