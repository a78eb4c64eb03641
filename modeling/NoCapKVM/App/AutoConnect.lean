import NoCapKVM.App.InputPump
import NoCapKVM.Discovery.Rejection
import NoCapKVM.Discovery.GoAway
import NoCapKVM.Discovery.Playback

/-! `app/auto_connect_pump.cpp`, and the buttons of `app/ui.cpp` that start and stop a
`TcpClient`: the main thread of a Slave together with the thread of its client. -/
namespace NoCapKVM.App

open Discovery Thread

/-- What an announcement has told of a device. -/
structure PeerInfo where
  deviceId : UInt64
  role : Role
  ipAddress : String
  tcpPort : UInt16

/-- A client as it is constructed, for a row of the listener's table. -/
structure Launch where
  deviceId : UInt64
  byUser : Bool
  conn : TcpClient

/-- A started client, with what its thread has done. -/
structure Client (na : Sodium UInt8) where
  launch : Launch
  past : List ConnLabel
  prog : ConnProg Unit
  world : World
  reached : ∃ init, init.status = {} ∧ Run clientSystem (TcpClient.run na launch.conn) init past prog world

namespace Client

variable {na : Sodium UInt8}

def start (launch : Launch) (knownPeers : KnownPeers) (clock : Time) (incoming : List UInt8) : Client na where
  launch := launch
  past := []
  prog := TcpClient.run na launch.conn
  world := { World.fresh knownPeers incoming with clock := clock }
  reached := ⟨_, rfl, .start⟩

/-- The thread performs its next operation. -/
def did (k : Client na) {o : Op} {next : Ans o → ConnProg Unit} {r : Ans o} {world : World}
    (hProg : k.prog = .op o next) (hExec : k.world.exec o r world) : Client na where
  launch := k.launch
  past := .did o r :: k.past
  prog := next r
  world := world
  reached := by
    obtain ⟨init, hInit, hRun⟩ := k.reached
    rw [hProg] at hRun
    exact ⟨init, hInit, hRun.did hExec⟩

/-- The thread enters a round of a loop. -/
def enter (k : Client na) {σ β : Type} {x : σ} {body : σ → ConnProg (σ ⊕ β)} {next : β → ConnProg Unit}
    (hProg : k.prog = .loop x body next) : Client na where
  launch := k.launch
  past := k.past
  prog := .unroll x body next
  world := k.world
  reached := by
    obtain ⟨init, hInit, hRun⟩ := k.reached
    rw [hProg] at hRun
    exact ⟨init, hInit, hRun.step (.loop x body next k.world)⟩

/-- The main thread calls a method. -/
def call (a : Action) (k : Client na) : Client na where
  launch := k.launch
  past := .env a :: k.past
  prog := k.prog
  world := k.world.act a
  reached := by
    obtain ⟨init, hInit, hRun⟩ := k.reached
    exact ⟨init, hInit, hRun.step (.env ⟨trivial, rfl⟩)⟩

/-- The published state tells the phase of the thread. -/
theorem telling (k : Client na) : Telling k.past k.world := by
  obtain ⟨init, hInit, hRun⟩ := k.reached
  exact client_telling (by rw [hInit]) hRun

/-- The published status tells of a go-away. -/
theorem known (k : Client na) : k.world.status.goAwayReceived = SentAway k.past := by
  obtain ⟨init, hInit, hRun⟩ := k.reached
  exact client_known (by rw [hInit]) hRun

/-- Whatever a client is about to do, it writes its status only as a
client does. -/
theorem writes {k : Client na} {o : Op} {next : Ans o → ConnProg Unit} (hProg : k.prog = .op o next) :
    IsClientOp o := by
  obtain ⟨init, -, hRun⟩ := k.reached
  rw [hProg] at hRun
  exact (client_safe init).ok_of_run hRun

/-- It tells of a go-away only on a connection, and as the last
of its status. -/
theorem leaves {k : Client na} {o : Op} {next : Ans o → ConnProg Unit} (hProg : k.prog = .op o next) :
    Discovery.leaves o k.past k.world := by
  obtain ⟨init, -, hRun⟩ := k.reached
  rw [hProg] at hRun
  exact client_leaves hRun

/-- Alive before its first attempt or between two. -/
def Waiting (k : Client na) : Bool :=
  !k.prog.ended && Gap k.past

end Client

/-- Where the main thread is. `choosing` is the loop of `pump_auto_connect`
over the rows left, and `waiting` records whether its look has met a waiting
client, which the program does not know. `drawing` and `forgetting` hold what
`status()` has returned. In `replacing` the client is being stopped and
joined, and `next` is what takes its place. -/
inductive Stage where
  | free
  | choosing (rows : List PeerInfo) (waiting : Bool)
  | drawing (info : ConnectionInfo)
  | forgetting (deviceId : UInt64) (info : Option ConnectionInfo)
  | replacing (next : Option Launch)

/-- The parts of `AppState` that the clients of a Slave depend on.
`knownPeers` is the trust store as long as no client uses it. -/
structure Slave (na : Sodium UInt8) where
  deviceId : UInt64
  ownStatic : Keypair UInt8
  role : Role := .slave
  listener : Option (List PeerInfo) := none
  knownPeers : KnownPeers
  connectionTimeout : Time := seconds 10
  autoConnectEnabled : Bool := true
  autoConnectSuppressed : UInt64 → Bool := fun _ => false
  tcpClient : Option (Client na) := none
  stage : Stage := .free

namespace Slave

variable {na : Sodium UInt8}

def store (s : Slave na) : KnownPeers :=
  match s.tcpClient with
  | some k => k.world.knownPeers
  | none => s.knownPeers

def launch (s : Slave na) (peer : PeerInfo) (byUser : Bool) : Launch where
  deviceId := peer.deviceId
  byUser := byUser
  conn := { ownDeviceId := s.deviceId, ownStatic := s.ownStatic, peerIp := peer.ipAddress,
            peerPort := peer.tcpPort, giveUpAfter := s.connectionTimeout }

/-- The client is told to stop. What takes its place waits for its thread. -/
def replace (s : Slave na) (next : Option Launch) : Slave na :=
  { s with tcpClient := s.tcpClient.map (·.call .stop), stage := .replacing next }

def suppress (s : Slave na) (deviceId : UInt64) : Slave na :=
  { s with autoConnectSuppressed := fun d => d = deviceId || s.autoConnectSuppressed d }

def unsuppress (s : Slave na) (deviceId : UInt64) : Slave na :=
  { s with autoConnectSuppressed := fun d => d ≠ deviceId && s.autoConnectSuppressed d }

/-- The suppression bookkeeping. -/
def bookkeep (s : Slave na) (info : ConnectionInfo) : Slave na :=
  let s := if info.state = .connected then s.unsuppress info.peerDeviceId else s
  if info.goAwayReceived then s.suppress info.peerDeviceId else s

def Busy (info : ConnectionInfo) : Bool :=
  info.state = .connecting || info.state = .pairing || info.state = .connected

/-- The loop over the rows begins, unless auto-connect is off. -/
def choose (s : Slave na) (rows : List PeerInfo) (waiting : Bool) : Slave na :=
  if s.autoConnectEnabled then { s with stage := .choosing rows waiting } else s

/-- The pump up to its loop over the rows. -/
def pumpAutoConnect (s : Slave na) : Slave na :=
  if s.role ≠ .slave then s
  else
    match s.listener with
    | none => s
    | some rows =>
        match s.tcpClient with
        | none => s.choose rows false
        | some k =>
            let s := s.bookkeep k.world.status
            if Busy k.world.status then s else s.choose rows k.Waiting

/-- The rows that the loop does not skip. -/
def Selectable (s : Slave na) (peer : PeerInfo) : Bool :=
  peer.role = .master && peer.tcpPort ≠ 0 && (s.store.getPubkey peer.deviceId).isSome &&
    !s.autoConnectSuppressed peer.deviceId

/-- One row of the loop. -/
def consider (s : Slave na) (peer : PeerInfo) (rows : List PeerInfo) (waiting : Bool) : Slave na :=
  if s.Selectable peer then s.replace (some (s.launch peer false))
  else { s with stage := .choosing rows waiting }

def disconnect (s : Slave na) (info : ConnectionInfo) : Slave na :=
  (s.suppress info.peerDeviceId).replace none

/-- "Forget" up to its first look at the status. -/
def forget (s : Slave na) (deviceId : UInt64) : Slave na :=
  { s with knownPeers := s.knownPeers.forget deviceId,
           tcpClient := s.tcpClient.map (·.call (.forget deviceId)),
           stage := .forgetting deviceId none }

/-- The two looks of "Forget": the first at the state, the second
at the device. -/
def forgetLook (s : Slave na) (deviceId : UInt64) (first : Option ConnectionInfo) : Slave na :=
  match s.tcpClient, first with
  | none, _ => { s with stage := .free }
  | some k, none =>
      if k.world.status.state = .connected then
        { s with stage := .forgetting deviceId (some k.world.status) }
      else { s with stage := .free }
  | some k, some _ =>
      if k.world.status.peerDeviceId = deviceId then s.replace none else { s with stage := .free }

def back (s : Slave na) : Slave na :=
  { s with listener := none }.replace none

end Slave

inductive Move where
  | did (launch : Launch) (l : ConnLabel)
  | enter
  | pump
  | row
  | pumped
  | connect (peer : PeerInfo)
  | draw
  | disconnect
  | drawn
  | forget (deviceId : UInt64)
  | forgetLook
  | back
  | started (launch : Launch)
  | cleared
  | chooseRole (role : Role)
  | hear (rows : List PeerInfo)
  | settings (connectionTimeout : Time) (autoConnectEnabled : Bool)
  | takeClipboard

variable {na : Sodium UInt8}

/-- The steps of the two threads, and of the listener's. A click may come
whenever the main thread is free. What a client's clock shows at its start and
what it will hear is open. -/
inductive Step : Slave na → Move → Slave na → Prop where
  | did {s : Slave na} {k : Client na} {o : Op} {next : Ans o → ConnProg Unit} {r : Ans o} {world : World}
      (hClient : s.tcpClient = some k) (hProg : k.prog = .op o next) (hExec : k.world.exec o r world) :
      Step s (.did k.launch (.did o r)) { s with tcpClient := some (k.did hProg hExec) }
  | enter {s : Slave na} {k : Client na} {σ β : Type} {x : σ} {body : σ → ConnProg (σ ⊕ β)}
      {next : β → ConnProg Unit} (hClient : s.tcpClient = some k) (hProg : k.prog = .loop x body next) :
      Step s .enter { s with tcpClient := some (k.enter hProg) }
  | pump {s : Slave na} (hStage : s.stage = .free) : Step s .pump s.pumpAutoConnect
  | row {s : Slave na} {peer : PeerInfo} {rows : List PeerInfo} {waiting : Bool}
      (hStage : s.stage = .choosing (peer :: rows) waiting) : Step s .row (s.consider peer rows waiting)
  | pumped {s : Slave na} {waiting : Bool} (hStage : s.stage = .choosing [] waiting) :
      Step s .pumped { s with stage := .free }
  | connect {s : Slave na} {rows : List PeerInfo} {peer : PeerInfo} (hStage : s.stage = .free)
      (hRole : s.role = .slave) (hListener : s.listener = some rows) (hRow : peer ∈ rows)
      (hMaster : peer.role = .master) (hPort : peer.tcpPort ≠ 0) :
      Step s (.connect peer) (s.replace (some (s.launch peer true)))
  | draw {s : Slave na} {k : Client na} (hStage : s.stage = .free) (hClient : s.tcpClient = some k) :
      Step s .draw { s with stage := .drawing k.world.status }
  | disconnect {s : Slave na} {info : ConnectionInfo} (hStage : s.stage = .drawing info)
      (hUp : info.state = .connected) : Step s .disconnect (s.disconnect info)
  | drawn {s : Slave na} {info : ConnectionInfo} (hStage : s.stage = .drawing info) :
      Step s .drawn { s with stage := .free }
  | forget {s : Slave na} {deviceId : UInt64} (hStage : s.stage = .free) :
      Step s (.forget deviceId) (s.forget deviceId)
  | forgetLook {s : Slave na} {deviceId : UInt64} {first : Option ConnectionInfo}
      (hStage : s.stage = .forgetting deviceId first) : Step s .forgetLook (s.forgetLook deviceId first)
  | back {s : Slave na} (hStage : s.stage = .free) : Step s .back s.back
  | started {s : Slave na} {launch : Launch} (clock : Time) (incoming : List UInt8)
      (hStage : s.stage = .replacing (some launch)) (hEnded : ∀ k, s.tcpClient = some k → k.prog.ended = true) :
      Step s (.started launch)
        { s with tcpClient := some (.start launch s.store clock incoming), stage := .free }
  | cleared {s : Slave na} (hStage : s.stage = .replacing none)
      (hEnded : ∀ k, s.tcpClient = some k → k.prog.ended = true) :
      Step s .cleared { s with tcpClient := none, knownPeers := s.store, stage := .free }
  | chooseRole {s : Slave na} {role : Role} (hStage : s.stage = .free) (hListener : s.listener = none) :
      Step s (.chooseRole role) { s with role := role, listener := some [] }
  | hear {s : Slave na} {rows : List PeerInfo} (hListener : s.listener.isSome = true) :
      Step s (.hear rows) { s with listener := some rows }
  | settings {s : Slave na} {connectionTimeout : Time} {autoConnectEnabled : Bool} (hStage : s.stage = .free)
      (hTimeout : seconds 1 ≤ connectionTimeout) :
      Step s (.settings connectionTimeout autoConnectEnabled)
        { s with connectionTimeout := connectionTimeout, autoConnectEnabled := autoConnectEnabled }
  | takeClipboard {s : Slave na} {k : Client na} (hStage : s.stage = .free) (hClient : s.tcpClient = some k) :
      Step s .takeClipboard { s with tcpClient := some (k.call .takePendingClipboard) }

/-- A condition on a step, from what was done before it and the state
that it leaves. -/
abbrev Condition (na : Sodium UInt8) := List Move → Slave na → Move → Prop

/-- The runs whose steps all meet a condition, with their moves,
newest first. -/
inductive SlaveRun (meets : Condition na) (init : Slave na) : List Move → Slave na → Prop where
  | start : SlaveRun meets init [] init
  | step {past : List Move} {s s' : Slave na} {m : Move} (prior : SlaveRun meets init past s) (last : Step s m s')
      (h : meets past s m) : SlaveRun meets init (m :: past) s'

/-- What every step that meets the condition keeps holds in every run. -/
theorem SlaveRun.invariant {meets : Condition na} (P : List Move → Slave na → Prop)
    (hStep : ∀ past s m s', P past s → Step s m s' → meets past s m → P (m :: past) s') {init s : Slave na}
    {past : List Move} (hInit : P [] init) (h : SlaveRun meets init past s) : P past s := by
  induction h with
  | start => exact hInit
  | step _ last hMeets ih => exact hStep _ _ _ _ ih last hMeets

/-- The outcomes of the pump up to its loop. -/
inductive PumpOutcome (s : Slave na) : Slave na → Prop where
  | off : PumpOutcome s s
  | alone (hClient : s.tcpClient = none) (rows : List PeerInfo) : PumpOutcome s (s.choose rows false)
  | busy {k : Client na} (hClient : s.tcpClient = some k) (hBusy : Slave.Busy k.world.status = true) :
      PumpOutcome s (s.bookkeep k.world.status)
  | idle {k : Client na} (hClient : s.tcpClient = some k) (hBusy : Slave.Busy k.world.status = false)
      (rows : List PeerInfo) : PumpOutcome s ((s.bookkeep k.world.status).choose rows k.Waiting)

/-- The pump does its bookkeeping, and then it has the client replaced, looks
through the rows, or does nothing. -/
theorem pumpAutoConnect_outcome (s : Slave na) : PumpOutcome s s.pumpAutoConnect := by
  unfold Slave.pumpAutoConnect
  split
  case isTrue => exact .off
  case isFalse =>
    split
    case h_1 => exact .off
    case h_2 rows _ =>
      split
      case h_1 hClient => exact .alone hClient rows
      case h_2 k hClient =>
        cases hBusy : Slave.Busy k.world.status with
        | true => exact .busy hClient hBusy
        | false => exact .idle hClient hBusy rows

@[simp] theorem Slave.stage_bookkeep (s : Slave na) (info : ConnectionInfo) :
    (s.bookkeep info).stage = s.stage := by
  unfold Slave.bookkeep
  split <;> split <;> rfl

@[simp] theorem Slave.tcpClient_bookkeep (s : Slave na) (info : ConnectionInfo) :
    (s.bookkeep info).tcpClient = s.tcpClient := by
  unfold Slave.bookkeep
  split <;> split <;> rfl

@[simp] theorem Slave.tcpClient_choose (s : Slave na) (rows : List PeerInfo) (waiting : Bool) :
    (s.choose rows waiting).tcpClient = s.tcpClient := by
  unfold Slave.choose
  split <;> rfl

theorem Slave.stage_choose (s : Slave na) (rows : List PeerInfo) (waiting : Bool) :
    (s.choose rows waiting).stage = .choosing rows waiting ∨ (s.choose rows waiting).stage = s.stage := by
  unfold Slave.choose
  split
  · exact .inl rfl
  · exact .inr rfl

/-- Moves of the main thread that start no client. -/
def IsQuiet : Move → Prop
  | .did .. | .started _ => False
  | _ => True

/-- Where the client of the state after a step comes from. -/
inductive ClientStep (s : Slave na) (k' : Client na) : Move → Prop where
  | kept {k : Client na} {m : Move} (hClient : s.tcpClient = some k) (hMove : IsQuiet m)
      (hLaunch : k'.launch = k.launch) (hPast : k'.past = k.past ∨ ∃ a, k'.past = .env a :: k.past)
      (hStatus : k'.world.status = k.world.status) : ClientStep s k' m
  | did {k : Client na} {o : Op} {r : Ans o} {next : Ans o → ConnProg Unit} (hClient : s.tcpClient = some k)
      (hProg : k.prog = .op o next) (hLaunch : k'.launch = k.launch) (hPast : k'.past = .did o r :: k.past)
      (hExec : k.world.exec o r k'.world) : ClientStep s k' (.did k.launch (.did o r))
  | started {launch : Launch} (hStage : s.stage = .replacing (some launch)) (hLaunch : k'.launch = launch)
      (hPast : k'.past = []) (hStatus : k'.world.status = {}) : ClientStep s k' (.started launch)

/-- A move that starts no client leaves the one that is there. -/
theorem ClientStep.same {s : Slave na} {k : Client na} {m : Move} (hMove : IsQuiet m)
    (hClient : s.tcpClient = some k) : ClientStep s k m :=
  .kept hClient hMove rfl (.inl rfl) rfl

/-- So does a move that calls a method of it. -/
theorem ClientStep.called {s : Slave na} {k' : Client na} {m : Move} {a : Action} (hMove : IsQuiet m)
    (hClient : s.tcpClient.map (·.call a) = some k') : ClientStep s k' m := by
  obtain ⟨k, hSome, rfl⟩ := Option.map_eq_some_iff.mp hClient
  exact .kept hSome hMove rfl (.inr ⟨a, rfl⟩) (act_status a k.world)

/-- The client after a step is the one before, perhaps one operation or one
call further, or has just been started for what was pending. -/
theorem Step.client {s s' : Slave na} {m : Move} {k' : Client na} (hStep : Step s m s')
    (hClient : s'.tcpClient = some k') : ClientStep s k' m := by
  cases hStep with
  | did hSome hProg hExec =>
      obtain rfl := Option.some.inj hClient
      exact .did hSome hProg rfl rfl hExec
  | enter hSome hProg =>
      obtain rfl := Option.some.inj hClient
      exact .kept hSome trivial rfl (.inl rfl) rfl
  | takeClipboard hStage hSome =>
      obtain rfl := Option.some.inj hClient
      exact .kept hSome trivial rfl (.inr ⟨_, rfl⟩) rfl
  | started clock incoming hStage hEnded =>
      obtain rfl := Option.some.inj hClient
      exact .started hStage rfl rfl rfl
  | cleared => cases hClient
  | pump =>
      generalize hPumped : s.pumpAutoConnect = s' at hClient
      have hOutcome := pumpAutoConnect_outcome s
      rw [hPumped] at hOutcome
      cases hOutcome with
      | off => exact .same trivial hClient
      | alone => exact .same trivial (Slave.tcpClient_choose .. ▸ hClient)
      | busy => exact .same trivial (Slave.tcpClient_bookkeep .. ▸ hClient)
      | idle => exact .same trivial (Slave.tcpClient_bookkeep .. ▸ Slave.tcpClient_choose .. ▸ hClient)
  | @row peer rows waiting hStage =>
      unfold Slave.consider at hClient
      split at hClient
      · exact .called trivial hClient
      · exact .same trivial hClient
  | connect => exact .called trivial hClient
  | disconnect => exact .called trivial hClient
  | forget => exact .called trivial hClient
  | back => exact .called trivial hClient
  | forgetLook hStage =>
      unfold Slave.forgetLook at hClient
      split at hClient
      · exact .same trivial hClient
      · split at hClient <;> exact .same trivial hClient
      · split at hClient
        · exact .called trivial hClient
        · exact .same trivial hClient
  | _ => exact .same trivial hClient

/-- A pump call itself replaces nothing. -/
theorem pump_stage {s : Slave na} (hStage : s.stage = .free) (next : Option Launch) :
    s.pumpAutoConnect.stage ≠ .replacing next := by
  have hChoose : ∀ {rows : List PeerInfo} {waiting : Bool} {t : Slave na}, t.stage = .free →
      (t.choose rows waiting).stage ≠ .replacing next := by
    intro rows waiting t hFree hEq
    rcases Slave.stage_choose t rows waiting with hChoosing | hSame
    · cases hChoosing.symm.trans hEq
    · cases (hFree.symm.trans hSame.symm).trans hEq
  have hOutcome := pumpAutoConnect_outcome s
  generalize s.pumpAutoConnect = s' at hOutcome
  cases hOutcome with
  | off =>
      rw [hStage]
      exact nofun
  | alone => exact hChoose hStage
  | busy =>
      rw [Slave.stage_bookkeep, hStage]
      exact nofun
  | idle => exact hChoose ((Slave.stage_bookkeep ..).trans hStage)

/-- Where a pending start comes from. -/
inductive PendingStep (s s' : Slave na) (next : Launch) : Move → Prop where
  | kept {m : Move} (hStage : s.stage = .replacing (some next))
      (hSuppressed : s'.autoConnectSuppressed = s.autoConnectSuppressed) (hMove : ∀ launch, m ≠ .started launch) :
      PendingStep s s' next m
  | selected {peer : PeerInfo} {rows : List PeerInfo} {waiting : Bool}
      (hStage : s.stage = .choosing (peer :: rows) waiting) (hSelectable : s.Selectable peer = true)
      (hNext : next = s.launch peer false) (hClient : s'.tcpClient = s.tcpClient.map (·.call .stop))
      (hSuppressed : s'.autoConnectSuppressed = s.autoConnectSuppressed) : PendingStep s s' next .row
  | pressed {peer : PeerInfo} (hNext : next = s.launch peer true) : PendingStep s s' next (.connect peer)

/-- What is pending after a step was pending before, or was chosen by a click
of the user or by the pump. -/
theorem Step.pending {s s' : Slave na} {m : Move} {next : Launch} (hStep : Step s m s')
    (hPending : s'.stage = .replacing (some next)) : PendingStep s s' next m := by
  cases hStep with
  | did => exact .kept hPending rfl nofun
  | enter => exact .kept hPending rfl nofun
  | hear => exact .kept hPending rfl nofun
  | takeClipboard | settings | chooseRole => exact .kept hPending rfl nofun
  | pump hStage => exact absurd hPending (pump_stage hStage _)
  | @row peer rows waiting hStage =>
      unfold Slave.consider at hPending ⊢
      split at hPending
      case isTrue hSelectable =>
        rw [if_pos hSelectable]
        injection hPending with hNext
        exact .selected hStage hSelectable (Option.some.inj hNext).symm rfl rfl
      case isFalse => cases hPending
  | connect =>
      injection hPending with hNext
      exact .pressed (Option.some.inj hNext).symm
  | forgetLook =>
      unfold Slave.forgetLook at hPending
      split at hPending
      · cases hPending
      · split at hPending <;> cases hPending
      · split at hPending <;> cases hPending
  | _ => cases hPending

/-- The next move of a play: of the client's thread, of the listener, of the
pump, or the user's Connect in a row. -/
inductive SlaveCue where
  | answer (x : Choice)
  | enter
  | hear (rows : List PeerInfo)
  | pump
  | row
  | pumped
  | connect (n : Nat)
  | started (clock : Time) (incoming : List UInt8)

/-- The thread performs its next operation with an answer that `x` chooses, or
enters the next round of a loop. -/
def Client.advance (k : Client na) (x : Option Choice) : Option (Move × Client na) :=
  match hProg : k.prog, x with
  | .op _ _, some x =>
      match hRespond : k.world.respond _ x with
      | some (r, _) => some (.did k.launch (.did _ r), k.did hProg (World.exec_of_respond hRespond))
      | none => none
  | .loop .., none => some (.enter, k.enter hProg)
  | _, _ => none

namespace Slave

/-- What the client's thread does next, in the state of the Slave. -/
def advance (s : Slave na) (x : Option Choice) : Option (Move × Slave na) :=
  s.tcpClient.bind fun k => (k.advance x).map fun (m, k') => (m, { s with tcpClient := some k' })

def cue (s : Slave na) : SlaveCue → Option (Move × Slave na)
  | .answer x => s.advance (some x)
  | .enter => s.advance none
  | .hear rows => if s.listener.isSome then some (.hear rows, { s with listener := some rows }) else none
  | .pump =>
      match s.stage with
      | .free => some (.pump, s.pumpAutoConnect)
      | _ => none
  | .row =>
      match s.stage with
      | .choosing (peer :: rows) waiting => some (.row, s.consider peer rows waiting)
      | _ => none
  | .pumped =>
      match s.stage with
      | .choosing [] _ => some (.pumped, { s with stage := .free })
      | _ => none
  | .connect n =>
      match s.stage, s.listener with
      | .free, some rows =>
          rows[n]?.bind fun peer =>
            if s.role = .slave ∧ peer.role = .master ∧ peer.tcpPort ≠ 0 then
              some (.connect peer, s.replace (some (s.launch peer true)))
            else none
      | _, _ => none
  | .started clock incoming =>
      match s.stage with
      | .replacing (some launch) =>
          if s.tcpClient.all (·.prog.ended) then
            some (.started launch, { s with tcpClient := some (.start launch s.store clock incoming), stage := .free })
          else none
      | _ => none

/-- Plays the cues as long as the moves fit. What it leaves is the moves,
newest first, and the state. -/
def play (fits : Slave na → Move → Bool) : List SlaveCue → List Move × Slave na → Option (List Move × Slave na)
  | [], c => some c
  | x :: xs, (past, s) => (s.cue x).bind fun (m, s') => if fits s m then play fits xs (m :: past, s') else none

end Slave

/-- What an advance does is a step of the client's thread. -/
theorem Slave.advance_step {s s' : Slave na} {x : Option Choice} {m : Move} (h : s.advance x = some (m, s')) :
    Step s m s' := by
  obtain ⟨k, hClient, hAdvance⟩ := Option.bind_eq_some_iff.mp h
  obtain ⟨⟨m', k'⟩, hThread, hEq⟩ := Option.map_eq_some_iff.mp hAdvance
  cases hEq
  unfold Client.advance at hThread
  split at hThread
  · split at hThread
    · cases hThread
      exact .did hClient _ _
    · cases hThread
  · cases hThread
    exact .enter hClient _
  · cases hThread

/-- What a cue does is a step of the Slave. -/
theorem Slave.cue_step {s s' : Slave na} {x : SlaveCue} {m : Move} (h : s.cue x = some (m, s')) : Step s m s' := by
  cases x with
  | answer x => exact advance_step h
  | enter => exact advance_step h
  | hear rows =>
      simp only [cue, Option.ite_none_right_eq_some, Option.some.injEq, Prod.mk.injEq] at h
      obtain ⟨hListener, rfl, rfl⟩ := h
      exact .hear hListener
  | pump =>
      simp only [cue] at h
      split at h
      case h_1 hStage =>
        cases h
        exact .pump hStage
      case h_2 => cases h
  | row =>
      simp only [cue] at h
      split at h
      case h_1 hStage =>
        cases h
        exact .row hStage
      case h_2 => cases h
  | pumped =>
      simp only [cue] at h
      split at h
      case h_1 hStage =>
        cases h
        exact .pumped hStage
      case h_2 => cases h
  | connect n =>
      simp only [cue] at h
      split at h
      case h_1 rows hStage hListener =>
        obtain ⟨peer, hPeer, hPressed⟩ := Option.bind_eq_some_iff.mp h
        simp only [Option.ite_none_right_eq_some, Option.some.injEq, Prod.mk.injEq] at hPressed
        obtain ⟨⟨hRole, hMaster, hPort⟩, rfl, rfl⟩ := hPressed
        exact .connect hStage hRole hListener (List.mem_of_getElem? hPeer) hMaster hPort
      case h_2 => cases h
  | started clock incoming =>
      simp only [cue] at h
      split at h
      case h_1 hStage =>
        simp only [Option.ite_none_right_eq_some, Option.some.injEq, Prod.mk.injEq] at h
        obtain ⟨hEnded, rfl, rfl⟩ := h
        exact .started clock incoming hStage fun k hClient => (Option.all_eq_true ..).mp hEnded k hClient
      case h_2 => cases h

/-- A play whose moves fit is a run whose steps meet the condition. -/
theorem SlaveRun.play {meets : Condition na} {fits : Slave na → Move → Bool}
    (hFits : ∀ past s m, fits s m = true → meets past s m) {init : Slave na} {xs : List SlaveCue}
    {c c' : List Move × Slave na} (h : Slave.play fits xs c = some c') (hRun : SlaveRun meets init c.1 c.2) :
    SlaveRun meets init c'.1 c'.2 := by
  induction xs generalizing c with
  | nil =>
      obtain rfl := Option.some.inj h
      exact hRun
  | cons x xs ih =>
      obtain ⟨⟨m, s'⟩, hCue, hRest⟩ := Option.bind_eq_some_iff.mp h
      obtain ⟨hFit, hPlay⟩ := Option.ite_none_right_eq_some.mp hRest
      exact ih hPlay (hRun.step (Slave.cue_step hCue) (hFits _ _ _ hFit))

/-- A play that ends where `check` holds gives a run that does. -/
theorem SlaveRun.exists_play {meets : Condition na} (fits : Slave na → Move → Bool)
    (hFits : ∀ past s m, fits s m = true → meets past s m) (init : Slave na) (xs : List SlaveCue)
    (check : List Move → Slave na → Bool)
    (h : ((Slave.play fits xs ([], init)).any fun c => check c.1 c.2) = true) :
    ∃ past s, SlaveRun meets init past s ∧ check past s = true := by
  obtain ⟨c, hPlay, hCheck⟩ := (Option.any_eq_true ..).mp h
  exact ⟨c.1, c.2, SlaveRun.play hFits hPlay .start, hCheck⟩

/-- A freshly started Slave. -/
structure Slave.Initial (s : Slave na) : Prop where
  client : s.tcpClient = none
  stage : s.stage = .free

end NoCapKVM.App
