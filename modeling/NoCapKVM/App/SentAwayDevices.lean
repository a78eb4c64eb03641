import NoCapKVM.App.RejectedDevices

/-! What a go-away ends. The pump leaves alone a device whose go-away its look has
met, but the client's own retry loop does not, and neither sees what the other does. -/
namespace NoCapKVM.App

open Discovery Thread

variable {na : Sodium UInt8}

/-- Device `d` has sent a go-away, and the user has not started a client for
it since. -/
def barred (d : UInt64) : List Move → Bool
  | .did launch (.did (.updateStatus .goAwayReceived) _) :: past => launch.deviceId = d || barred d past
  | .started launch :: past => !(launch.byUser && launch.deviceId = d) && barred d past
  | _ :: past => barred d past
  | [] => false

/-- What has to come together for a go-away to be respected. A client that
was sent away is stopped by the time that its wait is over. The device of a
row is the one that answers there. And a client that was sent away is not
gone before the pump has seen it, unless the user starts another one for the
same device. -/
structure Respected (_ : List Move) (s : Slave na) (m : Move) : Prop where
  stopped : ∀ k, s.tcpClient = some k → m = .did k.launch (.did .loadRunning true) →
    ¬ (SentAway k.past = true ∧ TcpClient.kInitialBackoff ≤ slept k.past)
  named : ∀ launch info, m = .did launch (.did (.assignStatus info) ()) → info.state = .connected →
    info.peerDeviceId = launch.deviceId
  seen : (∃ launch, m = .started launch) ∨ m = .cleared → ∀ k, s.tcpClient = some k → SentAway k.past = true →
    s.autoConnectSuppressed k.launch.deviceId = true ∨
      ∃ next, s.stage = .replacing (some next) ∧ next.byUser = true ∧ next.deviceId = k.launch.deviceId

/-- How the two threads know of a go-away. -/
structure Barring (past : List Move) (s : Slave na) : Prop where
  heeded : ∀ k, s.tcpClient = some k → Heeded k.past
  named : ∀ k, s.tcpClient = some k → k.world.status.state = .connected ∨ k.world.status.goAwayReceived = true →
    k.world.status.peerDeviceId = k.launch.deviceId
  pending : ∀ next, s.stage = .replacing (some next) → next.byUser = false →
    s.autoConnectSuppressed next.deviceId = false
  client : ∀ k, s.tcpClient = some k → barred k.launch.deviceId past = true → SentAway k.past = true
  covered : ∀ d, barred d past = true →
    s.autoConnectSuppressed d = true ∨ ∃ k, s.tcpClient = some k ∧ k.launch.deviceId = d

/-- Moves that neither tell of a go-away nor start a client bar nobody. -/
theorem barred_quiet {d : UInt64} {m : Move} {past : List Move} (hMove : IsQuiet m) :
    barred d (m :: past) = barred d past := by
  cases m <;> first
    | exact hMove.elim
    | rfl

/-- A client stays until another one is started or the user clears it. -/
theorem Step.survives {s s' : Slave na} {m : Move} {k : Client na} (hStep : Step s m s')
    (hClient : s.tcpClient = some k) (hStarted : ∀ launch, m ≠ .started launch) (hCleared : m ≠ .cleared) :
    ∃ k', s'.tcpClient = some k' ∧ k'.launch = k.launch := by
  have hCalled : ∀ a, ∃ k', s.tcpClient.map (·.call a) = some k' ∧ k'.launch = k.launch := fun a =>
    ⟨k.call a, by rw [hClient]; rfl, rfl⟩
  cases hStep with
  | did hSome hProg hExec =>
      obtain rfl := Option.some.inj (hSome.symm.trans hClient)
      exact ⟨_, rfl, rfl⟩
  | enter hSome hProg =>
      obtain rfl := Option.some.inj (hSome.symm.trans hClient)
      exact ⟨_, rfl, rfl⟩
  | takeClipboard hStage hSome =>
      obtain rfl := Option.some.inj (hSome.symm.trans hClient)
      exact ⟨_, rfl, rfl⟩
  | started => exact absurd rfl (hStarted _)
  | cleared => exact absurd rfl hCleared
  | pump =>
      have hOutcome := pumpAutoConnect_outcome s
      generalize s.pumpAutoConnect = s' at hOutcome
      cases hOutcome with
      | off => exact ⟨k, hClient, rfl⟩
      | alone => exact ⟨k, (Slave.tcpClient_choose ..).trans hClient, rfl⟩
      | busy => exact ⟨k, (Slave.tcpClient_bookkeep ..).trans hClient, rfl⟩
      | idle => exact ⟨k, (Slave.tcpClient_choose ..).trans ((Slave.tcpClient_bookkeep ..).trans hClient), rfl⟩
  | row =>
      unfold Slave.consider
      split
      · exact hCalled _
      · exact ⟨k, hClient, rfl⟩
  | connect | disconnect | forget | back => exact hCalled _
  | forgetLook =>
      unfold Slave.forgetLook
      split
      · exact ⟨k, hClient, rfl⟩
      · split <;> exact ⟨k, hClient, rfl⟩
      · split
        · exact hCalled _
        · exact ⟨k, hClient, rfl⟩
  | _ => exact ⟨k, hClient, rfl⟩

/-- A device stays suppressed until the bookkeeping sees it
connected again. -/
theorem suppressed_bookkeep {s : Slave na} {info : ConnectionInfo} {d : UInt64}
    (h : s.autoConnectSuppressed d = true) :
    (s.bookkeep info).autoConnectSuppressed d = true ∨ info.state = .connected ∧ info.peerDeviceId = d := by
  by_cases hLifted : info.state = .connected ∧ info.peerDeviceId = d
  · exact .inr hLifted
  · left
    unfold Slave.bookkeep
    by_cases hUp : info.state = .connected
    · have hOther : d ≠ info.peerDeviceId := fun hEq => hLifted ⟨hUp, hEq.symm⟩
      cases info.goAwayReceived <;> simp [Slave.suppress, Slave.unsuppress, hUp, hOther, h]
    · cases info.goAwayReceived <;> simp [Slave.suppress, hUp, h]

/-- To choose a device takes no suppression away. -/
theorem suppressed_choose (s : Slave na) (rows : List PeerInfo) (waiting : Bool) :
    (s.choose rows waiting).autoConnectSuppressed = s.autoConnectSuppressed := by
  unfold Slave.choose
  split <;> rfl

/-- A suppression is lifted only for the peer of a connection. -/
theorem Step.suppressed {s s' : Slave na} {m : Move} {d : UInt64} (hStep : Step s m s')
    (h : s.autoConnectSuppressed d = true) :
    s'.autoConnectSuppressed d = true ∨
      ∃ k, s.tcpClient = some k ∧ k.world.status.state = .connected ∧ k.world.status.peerDeviceId = d := by
  cases hStep with
  | pump =>
      have hOutcome := pumpAutoConnect_outcome s
      generalize s.pumpAutoConnect = s' at hOutcome
      cases hOutcome with
      | off => exact .inl h
      | alone =>
          left
          rw [suppressed_choose]
          exact h
      | busy hClient => exact (suppressed_bookkeep h).imp id fun hUp => ⟨_, hClient, hUp⟩
      | idle hClient =>
          rw [suppressed_choose]
          exact (suppressed_bookkeep h).imp id fun hUp => ⟨_, hClient, hUp⟩
  | row =>
      left
      unfold Slave.consider
      split <;> exact h
  | disconnect =>
      left
      show (decide _ || s.autoConnectSuppressed d) = true
      rw [h, Bool.or_true]
  | forgetLook =>
      left
      unfold Slave.forgetLook
      split
      · exact h
      · split <;> exact h
      · split <;> exact h
  | _ => exact .inl h

/-- What the other threads do makes no mistake of the client's. -/
theorem heeded_env {k k' : Client na} (hPast : k'.past = k.past ∨ ∃ a, k'.past = .env a :: k.past)
    (h : Heeded k.past) : Heeded k'.past := by
  rcases hPast with hSame | ⟨a, hCalled⟩
  · rw [hSame]
    exact h
  · rw [hCalled]
    exact h

/-- Nor do they send the client away. -/
theorem sentAway_env {k k' : Client na} (hPast : k'.past = k.past ∨ ∃ a, k'.past = .env a :: k.past) :
    SentAway k'.past = SentAway k.past := by
  rcases hPast with hSame | ⟨a, hCalled⟩
  · rw [hSame]
  · rw [hCalled]
    rfl

/-- A step that keeps the conditions leaves the client without a mistake. -/
theorem heeded_step {past : List Move} {s s' : Slave na} {m : Move} (h : Barring past s) (hStep : Step s m s')
    (hMeets : Respected past s m) {k' : Client na} (hClient : s'.tcpClient = some k') : Heeded k'.past := by
  cases hStep.client hClient with
  | kept hSome hMove hLaunch hPast hStatus => exact heeded_env hPast (h.heeded _ hSome)
  | @did k o r next hSome hProg hLaunch hPast hExec =>
      have hOld := h.heeded k hSome
      rw [hPast]
      cases o with
      | loadRunning =>
          cases r with
          | true => exact ⟨hMeets.stopped k hSome rfl, hOld⟩
          | false => exact hOld
      | _ => exact hOld
  | started hStage hLaunch hPast hStatus =>
      rw [hPast]
      trivial

/-- The name in the status is that of the device that the client was
started for. -/
theorem named_step {past : List Move} {s s' : Slave na} {m : Move} (h : Barring past s) (hStep : Step s m s')
    (hMeets : Respected past s m) {k' : Client na} (hClient : s'.tcpClient = some k')
    (hTold : k'.world.status.state = .connected ∨ k'.world.status.goAwayReceived = true) :
    k'.world.status.peerDeviceId = k'.launch.deviceId := by
  cases hStep.client hClient with
  | kept hSome hMove hLaunch hPast hStatus =>
      rw [hStatus] at hTold ⊢
      rw [hLaunch]
      exact h.named _ hSome hTold
  | @did k o r next hSome hProg hLaunch hPast hExec =>
      have hOld := h.named k hSome
      rw [hLaunch]
      by_cases hAssign : ∃ info, o = .assignStatus info
      · obtain ⟨info, rfl⟩ := hAssign
        have hStatus : k'.world.status = info := by rw [hExec]
        have hFlag : info.goAwayReceived = false := (Client.writes hProg).2
        rw [hStatus] at hTold ⊢
        rw [hFlag] at hTold
        exact hMeets.named _ info rfl (hTold.resolve_right nofun)
      by_cases hUpdate : ∃ u, o = .updateStatus u
      · obtain ⟨u, rfl⟩ := hUpdate
        have hStatus : k'.world.status = u.apply k.world.status := by rw [hExec]
        rw [hStatus] at hTold ⊢
        cases u with
        | state state =>
            have hState : state = .failed := Client.writes hProg
            subst hState
            exact hOld (.inr (hTold.resolve_left nofun))
        | goAwayReceived => exact hOld (.inl ((Client.leaves hProg).1 rfl))
        | _ => exact hOld hTold
      · have hStatus := exec_status hExec (fun info hEq => hAssign ⟨info, hEq⟩) fun u hEq => hUpdate ⟨u, hEq⟩
        rw [hStatus] at hTold ⊢
        exact hOld hTold
  | started hStage hLaunch hPast hStatus =>
      rw [hStatus] at hTold
      rcases hTold with hTold | hTold <;> cases hTold

/-- The pump starts nobody whom it suppresses. -/
theorem pending_step {past : List Move} {s s' : Slave na} {m : Move} (h : Barring past s) (hStep : Step s m s')
    {next : Launch} (hStage : s'.stage = .replacing (some next)) (hPump : next.byUser = false) :
    s'.autoConnectSuppressed next.deviceId = false := by
  cases hStep.pending hStage with
  | kept hOld hSuppressed hMove =>
      rw [hSuppressed]
      exact h.pending next hOld hPump
  | selected hChoosing hSelectable hNext hClient hSuppressed =>
      rw [hSuppressed, hNext]
      unfold Slave.Selectable at hSelectable
      exact Bool.not_eq_true' _ ▸ (Bool.and_eq_true_iff.mp hSelectable).2
  | pressed hNext =>
      rw [hNext] at hPump
      cases hPump

/-- A client is gone only once the pump leaves its device alone. -/
theorem suppressed_of_gone {past : List Move} {s : Slave na} {m : Move} {k : Client na} (h : Barring past s)
    (hMeets : Respected past s m) (hGone : (∃ launch, m = .started launch) ∨ m = .cleared)
    (hClient : s.tcpClient = some k) (hBarred : barred k.launch.deviceId past = true) :
    s.autoConnectSuppressed k.launch.deviceId = true ∨
      ∃ next, s.stage = .replacing (some next) ∧ next.byUser = true ∧ next.deviceId = k.launch.deviceId :=
  hMeets.seen hGone k hClient (h.client k hClient hBarred)

/-- A device that is barred stays so, unless the user starts a
client for it. -/
theorem barred_started {d : UInt64} {launch : Launch} {past : List Move}
    (h : barred d (.started launch :: past) = true) :
    barred d past = true ∧ (launch.byUser = true → launch.deviceId ≠ d) := by
  obtain ⟨hOther, hOld⟩ := Bool.and_eq_true_iff.mp h
  refine ⟨hOld, fun hUser hDevice => ?_⟩
  simp [hUser, hDevice] at hOther

/-- The client of a barred device has been sent away. -/
theorem client_step {past : List Move} {s s' : Slave na} {m : Move} (h : Barring past s) (hStep : Step s m s')
    (hMeets : Respected past s m) {k' : Client na} (hClient : s'.tcpClient = some k')
    (hBarred : barred k'.launch.deviceId (m :: past) = true) : SentAway k'.past = true := by
  cases hStep.client hClient with
  | kept hSome hMove hLaunch hPast hStatus =>
      rw [hLaunch, barred_quiet hMove] at hBarred
      rw [sentAway_env hPast]
      exact h.client _ hSome hBarred
  | @did k o r next hSome hProg hLaunch hPast hExec =>
      rw [hLaunch] at hBarred
      rw [hPast]
      cases o with
      | assignStatus info =>
          -- A client that was sent away comes to no new attempt.
          have hAway := h.client k hSome hBarred
          have hWelcome := (Client.leaves hProg).2 info rfl (h.heeded k hSome)
          rw [hAway] at hWelcome
          cases hWelcome
      | updateStatus u =>
          cases u with
          | goAwayReceived => rfl
          | _ => exact h.client k hSome hBarred
      | _ => exact h.client k hSome hBarred
  | @started launch hStage hLaunch hPast hStatus =>
      rw [hLaunch] at hBarred
      obtain ⟨hOld, hOther⟩ := barred_started hBarred
      have hPump : launch.byUser = false := by
        cases hUser : launch.byUser with
        | false => rfl
        | true => exact absurd rfl (hOther hUser)
      have hUnsuppressed := h.pending launch hStage hPump
      rcases h.covered launch.deviceId hOld with hSuppressed | ⟨k, hSome, hDevice⟩
      · rw [hUnsuppressed] at hSuppressed
        cases hSuppressed
      · rw [← hDevice] at hOld
        rcases suppressed_of_gone h hMeets (.inl ⟨launch, rfl⟩) hSome hOld with hSuppressed | ⟨next, hNext, hUser, -⟩
        · rw [hDevice, hUnsuppressed] at hSuppressed
          cases hSuppressed
        · cases hStage.symm.trans hNext
          rw [hPump] at hUser
          cases hUser

/-- A barred device is suppressed, or the client that it sent away is
still there. -/
theorem covered_step {past : List Move} {s s' : Slave na} {m : Move} (h : Barring past s) (hStep : Step s m s')
    (hMeets : Respected past s m) {d : UInt64} (hBarred : barred d (m :: past) = true) :
    s'.autoConnectSuppressed d = true ∨ ∃ k, s'.tcpClient = some k ∧ k.launch.deviceId = d := by
  -- Unless the client goes, its device stays covered by it.
  have hStays : (∀ launch, m ≠ .started launch) → m ≠ .cleared → barred d past = true →
      s'.autoConnectSuppressed d = true ∨ ∃ k, s'.tcpClient = some k ∧ k.launch.deviceId = d := by
    intro hStarted hCleared hOld
    have hHere : ∀ k, s.tcpClient = some k → k.launch.deviceId = d →
        ∃ k, s'.tcpClient = some k ∧ k.launch.deviceId = d := by
      intro k hSome hDevice
      obtain ⟨k', hSome', hLaunch⟩ := hStep.survives hSome hStarted hCleared
      exact ⟨k', hSome', by rw [hLaunch, hDevice]⟩
    rcases h.covered d hOld with hSuppressed | ⟨k, hSome, hDevice⟩
    · rcases hStep.suppressed hSuppressed with hKept | ⟨k, hSome, hUp, hPeer⟩
      · exact .inl hKept
      · exact .inr (hHere k hSome ((h.named k hSome (.inl hUp)).symm.trans hPeer))
    · exact .inr (hHere k hSome hDevice)
  -- When it goes, the pump has seen it.
  have hGoes : ∀ next, s.stage = .replacing next → ((∃ launch, m = .started launch) ∨ m = .cleared) →
      s'.autoConnectSuppressed = s.autoConnectSuppressed → barred d past = true →
      (∀ launch, next = some launch → launch.byUser = true → launch.deviceId ≠ d) →
      s'.autoConnectSuppressed d = true := by
    intro next hStage hGone hSame hOld hOther
    rw [hSame]
    rcases h.covered d hOld with hSuppressed | ⟨k, hSome, rfl⟩
    · exact hSuppressed
    · rcases suppressed_of_gone h hMeets hGone hSome hOld with hSuppressed | ⟨launch, hNext, hUser, hDevice⟩
      · exact hSuppressed
      · cases hStage.symm.trans hNext
        exact absurd hDevice (hOther launch rfl hUser)
  cases hStep with
  | @started launch clock incoming hStage hEnded =>
      obtain ⟨hOld, hOther⟩ := barred_started hBarred
      refine .inl (hGoes _ hStage (.inl ⟨launch, rfl⟩) rfl hOld ?_)
      rintro _ ⟨⟩
      exact hOther
  | cleared hStage hEnded => exact .inl (hGoes _ hStage (.inr rfl) rfl hBarred nofun)
  | @did k o r next world hSome hProg hExec =>
      have hMine : barred d past = true ∨ k.launch.deviceId = d := by
        cases o with
        | updateStatus u =>
            cases u with
            | goAwayReceived => exact (Bool.or_eq_true_iff.mp hBarred).symm.imp id of_decide_eq_true
            | _ => exact .inl hBarred
        | _ => exact .inl hBarred
      rcases hMine with hOld | hDevice
      · exact hStays nofun nofun hOld
      · exact .inr ⟨_, rfl, hDevice⟩
  | _ => exact hStays nofun nofun hBarred

/-- So a step that keeps the conditions keeps both threads informed of the
go-away. -/
theorem barring_step {past : List Move} {s s' : Slave na} {m : Move} (h : Barring past s) (hStep : Step s m s')
    (hMeets : Respected past s m) : Barring (m :: past) s' where
  heeded _ hClient := heeded_step h hStep hMeets hClient
  named _ hClient := named_step h hStep hMeets hClient
  pending _ hStage := pending_step h hStep hStage
  client _ hClient := client_step h hStep hMeets hClient
  covered _ hBarred := covered_step h hStep hMeets hBarred

/-- And so does every run. -/
theorem run_barring {init s : Slave na} {past : List Move} (hInit : init.Initial)
    (hRun : SlaveRun Respected init past s) : Barring past s := by
  have hNone : ∀ k, init.tcpClient ≠ some k := fun k hClient => nomatch hInit.client.symm.trans hClient
  refine hRun.invariant Barring (fun _ _ _ _ h hStep hMeets => barring_step h hStep hMeets) ?_
  exact {
    heeded := fun k hClient => absurd hClient (hNone k)
    named := fun k hClient => absurd hClient (hNone k)
    pending := fun next hStage => nomatch hInit.stage.symm.trans hStage
    client := fun k hClient => absurd hClient (hNone k)
    covered := fun d hBarred => nomatch hBarred }

/-- No client begins an attempt to a device that has sent a go-away,
unless the user has started one for it since, as long as the two
threads respect it. -/
theorem go_away_respected {init s : Slave na} {past : List Move} {k : Client na} {o : Op}
    {next : Ans o → ConnProg Unit} (hInit : init.Initial) (hRun : SlaveRun Respected init past s)
    (hClient : s.tcpClient = some k) (hProg : k.prog = .op o next) (hBegins : BeginsAttempt o) :
    barred k.launch.deviceId past = false := by
  have hBarring := run_barring hInit hRun
  obtain ⟨info, rfl, -⟩ := hBegins
  have hWelcome := (Client.leaves hProg).2 info rfl (hBarring.heeded k hClient)
  cases hBarred : barred k.launch.deviceId past with
  | false => rfl
  | true =>
      rw [hBarring.client k hClient hBarred] at hWelcome
      cases hWelcome

section Instance

/-- The second message of the handshake, as the Master of
device 2 makes it. -/
def secondMessage : List UInt8 :=
  ((do
    let (msg1, _) ← ikWriteMsg1 plainSodium (plainKeypair 1) (plainKeypair 2).publicKey (plainKeypair 3)
    let hello ← ikReadMsg1 plainSodium (plainKeypair 2) (fit 96 msg1)
    let (msg2, _) ← ikWriteMsg2 plainSodium hello (plainKeypair 4)
    return msg2) : Option (List UInt8)).getD []

/-- What a Master sends that knows the Slave. -/
def greeting : List UInt8 :=
  (encodeDeviceId 2).val ++ 0 :: secondMessage

/-- A client connects and is sent away. -/
def sentAwayCues : List SlaveCue :=
  beginCues ++ usual 12 ++ .answer (.keypair (plainKeypair 3)) :: usual 11 ++
    [.enter, .answer .usual, .answer .usual, .answer (.message (.ok kMsgGoAway []))] ++ usual 3

/-- Its peer closes the connection, and it begins to wait. -/
def closedCues : List SlaveCue :=
  [.enter, .answer .usual, .answer .usual, .answer (.message .closed)] ++ usual 5

def sleepCues : List SlaveCue :=
  .enter :: usual 3

def goesAway (d : UInt64) : Move → Bool
  | .did launch (.did (.updateStatus .goAwayReceived) _) => launch.deviceId = d
  | _ => false

/-- A client is about to begin an attempt to a device that has
sent a go-away. -/
def callsAway (past : List Move) (s : Slave na) : Bool :=
  s.tcpClient.any fun k => beginsAttempt k.prog && past.any (goesAway k.launch.deviceId)

/-- The test finds a client that is about to begin an attempt to a device that
has sent it away. -/
theorem attempt_of_callsAway {past : List Move} {s : Slave na} (h : callsAway past s = true) :
    ∃ k o next, s.tcpClient = some k ∧ k.prog = .op o next ∧ BeginsAttempt o ∧
      past.any (goesAway k.launch.deviceId) = true := by
  obtain ⟨k, hClient, hCalls⟩ := (Option.any_eq_true ..).mp h
  obtain ⟨hAttempt, hAway⟩ := Bool.and_eq_true_iff.mp hCalls
  obtain ⟨o, next, hProg, hBegins⟩ := beginsAttempt_op hAttempt
  exact ⟨k, o, next, hClient, hProg, hBegins, hAway⟩

/-- A client that was sent away goes on neither after its wait nor unseen, and
a device answers under its own name. -/
def respects (s : Slave na) : Move → Bool
  | .did _ (.did .loadRunning true) =>
      s.tcpClient.all fun k => !(SentAway k.past && TcpClient.kInitialBackoff ≤ slept k.past)
  | .did launch (.did (.assignStatus info) _) => info.state ≠ .connected || info.peerDeviceId = launch.deviceId
  | .started _ => s.tcpClient.all fun k => !SentAway k.past || s.autoConnectSuppressed k.launch.deviceId
  | .cleared => false
  | _ => true

/-- The test for the conditions of a move is sound. -/
theorem respected_of_respects (past : List Move) (s : Slave na) (m : Move) (h : respects s m = true) :
    Respected past s m where
  stopped := by
    rintro k hClient rfl ⟨hAway, hWaited⟩
    have hStopped := (Option.all_eq_true ..).mp h k hClient
    simp [hAway, hWaited] at hStopped
  named := by
    rintro launch info rfl hUp
    simpa [respects, hUp] using h
  seen := by
    rintro (⟨launch, rfl⟩ | rfl) k hClient hAway
    · have hSeen := (Option.all_eq_true ..).mp h k hClient
      left
      simpa [hAway] using hSeen
    · cases h

/-- The client of device 2 is stopped in its wait after a go-away, which the
pump has seen. Only the user calls that device again. -/
theorem go_away_respected_again : ∃ past s k o next,
    SlaveRun Respected finder past s ∧ s.tcpClient = some k ∧ k.prog = .op o next ∧ BeginsAttempt o ∧
      past.any (goesAway k.launch.deviceId) = true ∧ s.autoConnectSuppressed k.launch.deviceId = true ∧
      barred k.launch.deviceId past = false := by
  obtain ⟨past, s, hRun, hCheck⟩ := SlaveRun.exists_play _ respected_of_respects finder
    ([.pump, .row, .started 0 greeting] ++ sentAwayCues ++ .pump :: closedCues ++ sleepCues ++
      [.pump, .row, .row, .pumped, .connect 0, .enter, .answer .usual, .answer .usual, .enter, .answer .usual,
        .started 0 []] ++ beginCues)
    (fun past s => callsAway past s && s.tcpClient.all fun k => s.autoConnectSuppressed k.launch.deviceId)
    (by decide +kernel)
  obtain ⟨hCalls, hSuppressed⟩ := Bool.and_eq_true_iff.mp hCheck
  obtain ⟨k, o, next, hClient, hProg, hBegins, hAway⟩ := attempt_of_callsAway hCalls
  exact ⟨past, s, k, o, next, hRun, hClient, hProg, hBegins, hAway, (Option.all_eq_true ..).mp hSuppressed k hClient,
    go_away_respected ⟨rfl, rfl⟩ hRun hClient hProg hBegins⟩

/-- The client's retry loop calls device 2 again after its go-away. -/
theorem go_away_ignored : ∃ past s k o next,
    SlaveRun (fun _ _ _ => True) finder past s ∧ s.tcpClient = some k ∧ k.prog = .op o next ∧ BeginsAttempt o ∧
      barred k.launch.deviceId past = true := by
  obtain ⟨past, s, hRun, hCheck⟩ := SlaveRun.exists_play (fun _ _ => true) (fun _ _ _ _ => trivial) finder
    ([.pump, .row, .started 0 greeting] ++ sentAwayCues ++ closedCues ++
      sleepCues ++ sleepCues ++ sleepCues ++ sleepCues ++ sleepCues ++ [.enter, .answer .usual, .enter, .answer .usual])
    (fun past s => s.tcpClient.any fun k => beginsAttempt k.prog && barred k.launch.deviceId past)
    (by decide +kernel)
  obtain ⟨k, hClient, hCalls⟩ := (Option.any_eq_true ..).mp hCheck
  obtain ⟨hAttempt, hBarred⟩ := Bool.and_eq_true_iff.mp hCalls
  obtain ⟨o, next, hProg, hBegins⟩ := beginsAttempt_op hAttempt
  exact ⟨past, s, k, o, next, hRun, hClient, hProg, hBegins, hBarred⟩

end Instance

end NoCapKVM.App
