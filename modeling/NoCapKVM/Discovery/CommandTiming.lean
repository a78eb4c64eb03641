import NoCapKVM.Discovery.Console
import NoCapKVM.Discovery.PlainSodium

/-! Which commands of the UI take effect. The server publishes a status first and
resets the flag for its answer afterwards. A command that comes after the reset leads
to operations that the events before it determine. -/
namespace NoCapKVM.Discovery.CommandTiming

open Thread TcpServer

/-- The published status, apart from the fields that a session updates. -/
def published : List UiLabel → ConnectionInfo
  | [] => {}
  | .did (.assignStatus info) _ :: _ => info
  | _ :: past => published past

/-- The published status is a connection. -/
def onAir (past : List UiLabel) : Bool :=
  (published past).state = .connected

/-- The disconnect flag was reset since the status was published. -/
def armed : List UiLabel → Bool
  | [] => false
  | .did (.storeDisconnect _) _ :: _ => true
  | .did (.assignStatus _) _ :: _ => false
  | _ :: past => armed past

/-- How many operations the server has performed since it was told to end the
connection that is published. -/
def ordered : List UiLabel → Option Nat
  | [] => none
  | .env .disconnect :: past => if onAir past then (ordered past).or (some 0) else ordered past
  | .did (.assignStatus _) _ :: _ => none
  | .did _ _ :: past => (ordered past).map (· + 1)
  | _ :: past => ordered past

/-- The keys of the channel of the current connection. -/
def channelKeys : List UiLabel → Option (TransportKeys UInt8)
  | [] => none
  | .did (.openChannel keys) _ :: _ => some keys
  | .did .closeSocket _ :: _ => none
  | _ :: past => channelKeys past

/-- The key that a peer has presented last to be paired. -/
def presented : List UiLabel → Option (Key32 UInt8)
  | [] => none
  | .did (.recvAll .rawPubkey 32 _) key :: _ => key
  | _ :: past => presented past

/-- When the published request times out. The first look at the
clock decides it. -/
def deadline : List UiLabel → Option Time
  | [] => none
  | .did (.assignStatus _) _ :: _ => none
  | .did .now t :: past => (deadline past).or (some (t + kPairingApprovalTimeout))
  | _ :: past => deadline past

/-- A request ends here without an answer: the server was stopped, or
the time is up. -/
def expires (past : List UiLabel) : UiLabel → Bool
  | .did .loadRunning running => !running
  | .did .now t => (deadline past).any (· ≤ t)
  | _ => false

/-- What a request is decided to be here. One that expires is refused. -/
def outcome (past : List UiLabel) : UiLabel → Option Bool
  | .did .loadDecision .approved => some true
  | .did .loadDecision .rejected => some false
  | l => if expires past l then some false else none

/-- A pairing request is published, and not decided yet. -/
def asked : List UiLabel → Bool
  | [] => false
  | .did (.assignStatus info) _ :: _ => info.state = .pairing
  | l :: past => (outcome past l).isNone && asked past

/-- The decision flag was reset since the status was published. -/
def cleared : List UiLabel → Bool
  | [] => false
  | .did (.storeDecision _) _ :: _ => true
  | .did (.assignStatus _) _ :: _ => false
  | _ :: past => cleared past

def answer (yes : Bool) : Option (Bool × Nat) → Option (Bool × Nat)
  | some (yes', n) => if yes' = yes then some (yes', n) else some (yes, 0)
  | none => some (yes, 0)

/-- The answer to the published request that nothing was decided by yet, and
how many operations the server has performed since it was given. -/
def told : List UiLabel → Option (Bool × Nat)
  | [] => none
  | .env (.accept _) :: past => if asked past then answer true (told past) else told past
  | .env .reject :: past => if asked past then answer false (told past) else told past
  | .env _ :: past => told past
  | .did (.assignStatus _) _ :: _ => none
  | l :: past => if asked (l :: past) then (told past).map fun (yes, n) => (yes, n + 1) else none

/-- What an answer leads to where device `d` asks to be paired with `key`. -/
def pairing (d : UInt64) (key : Option (Key32 UInt8)) : Bool → List Op
  | true => .sendAll .decision [kPairingApproved] :: key.toList.map (.remember d)
  | false => [.sendAll .decision [kPairingRejected], .closeSocket, .assignStatus {}]

/-- What it leads to where device `d`, which was kicked, asks to be
admitted again. -/
def readmission (d : UInt64) (ip : String) (keys : TransportKeys UInt8) : Bool → List Op
  | true => [.kickedErase d,
      .assignStatus { state := .connected, peerDeviceId := d, peerIp := ip, audioKey := keys.recvKey }]
  | false => [.channelSend kMsgGoAway [], .closeSocket, .assignStatus {}]

/-- The operations that carry out an answer to the published request. A
pairing comes before the channel is open, and a readmission afterwards. -/
def consequences (past : List UiLabel) : Bool → List Op :=
  match channelKeys past with
  | none => pairing (published past).peerDeviceId (presented past)
  | some keys => readmission (published past).peerDeviceId (published past).peerIp keys

/-- The operations that end a connection with device `d` for which the user
has asked it. -/
def farewell (d : UInt64) : List Op :=
  [.channelSend kMsgGoAway [], .kickedInsert d, .setActiveChannel false, .closeSocket, .assignStatus {}]

/-- The operations that are due, in this order, after a request was decided or
an order to disconnect was read. Further looks at the order change nothing. -/
def owed : List UiLabel → List Op
  | [] => []
  | .env _ :: past => owed past
  | .did .loadDisconnect requested :: past =>
      if (owed past).isEmpty && requested && onAir past then farewell (published past).peerDeviceId
      else owed past
  | l :: past =>
      match asked past, outcome past l with
      | true, some yes => consequences past yes
      | _, _ => (owed past).tail

def verdict : Bool → PairingDecision
  | true => .approved
  | false => .rejected

/-- An answer to the published request comes after the reset of the flag, and
does not contradict one that was not read yet. -/
def AnswerInTime (yes : Bool) (past : List UiLabel) : Prop :=
  asked past = true → cleared past = true ∧ ∀ answered ∈ told past, answered.1 = yes

/-- No request expires while an approval of it is not read yet. -/
def ExpiryInTime (l : UiLabel) (past : List UiLabel) : Prop :=
  expires past l = true → ∀ answered ∈ told past, answered.1 = false

/-- Every command comes after the reset of its flag, and no request expires
before an approval of it is read. -/
def InTime : List UiLabel → Prop
  | [] => True
  | .env .disconnect :: past => (onAir past = true → armed past = true) ∧ InTime past
  | .env (.accept _) :: past => AnswerInTime true past ∧ InTime past
  | .env .reject :: past => AnswerInTime false past ∧ InTime past
  | l :: past => ExpiryInTime l past ∧ InTime past

instance (yes : Bool) (past : List UiLabel) : Decidable (AnswerInTime yes past) :=
  inferInstanceAs (Decidable (asked past = true →
    cleared past = true ∧ ∀ answered ∈ told past, answered.1 = yes))

instance (l : UiLabel) (past : List UiLabel) : Decidable (ExpiryInTime l past) :=
  inferInstanceAs (Decidable (expires past l = true → ∀ answered ∈ told past, answered.1 = false))

instance decidableInTime : DecidablePred InTime
  | [] => .isTrue trivial
  | .did o r :: past =>
      have := decidableInTime past
      inferInstanceAs (Decidable (ExpiryInTime (.did o r) past ∧ InTime past))
  | .env .disconnect :: past =>
      have := decidableInTime past
      inferInstanceAs (Decidable ((onAir past = true → armed past = true) ∧ InTime past))
  | .env (.accept _) :: past =>
      have := decidableInTime past
      inferInstanceAs (Decidable (AnswerInTime true past ∧ InTime past))
  | .env .reject :: past =>
      have := decidableInTime past
      inferInstanceAs (Decidable (AnswerInTime false past ∧ InTime past))
  | .env .look :: past =>
      have := decidableInTime past
      inferInstanceAs (Decidable (ExpiryInTime (.env .look) past ∧ InTime past))
  | .env (.other a) :: past =>
      have := decidableInTime past
      inferInstanceAs (Decidable (ExpiryInTime (.env (.other a)) past ∧ InTime past))

def kDisconnectSteps : Nat := 16
def kAnswerSteps : Nat := 3

/-- The last event does not disregard a command. An order to disconnect is
read as given and leads to the farewell, or the connection ends without
one, and in either case soon. An answer is read as given, soon, and is
what the request is decided by. What is due after either is what the
server does next. -/
structure Heeded (past : List UiLabel) : Prop where
  disconnect_read : ∀ r older, past = .did .loadDisconnect r :: older → (ordered older).isSome → r = true
  disconnect_soon : ∀ n ∈ ordered past, n ≤ kDisconnectSteps
  disconnect_closes : ∀ info r older, past = .did (.assignStatus info) r :: older → (ordered older).isSome →
    info = {} ∧ channelKeys older = none
  answer_read : ∀ d older, past = .did .loadDecision d :: older →
    ∀ answered ∈ told older, d = verdict answered.1
  answer_soon : ∀ answered ∈ told past, answered.2 ≤ kAnswerSteps
  answer_kept : ∀ info r older, past = .did (.assignStatus info) r :: older → told older = none
  answer_decides : ∀ l older, past = l :: older → asked older = true → asked past = false →
    ∀ answered ∈ told older, owed past = consequences older answered.1
  carried_out : ∀ o r older, past = .did o r :: older → o ≠ .loadDisconnect →
    ∀ due ∈ (owed older).head?, o = due

variable {na : Sodium UInt8} {c : TcpServer} {α : Type}

/-- Every command that waits has time left. -/
def HasTime (past : List UiLabel) : Prop :=
  (∀ n ∈ ordered past, n < kDisconnectSteps) ∧ ∀ answered ∈ told past, answered.2 < kAnswerSteps

/-- Where an operation heeds the commands. -/
def ok : Op → Assertion Op Ans UiAction Console := fun o past s => InTime past →
  (o ≠ .loadDisconnect → ∀ due ∈ (owed past).head?, o = due) ∧
  match o with
  | .assignStatus info => told past = none ∧ ((ordered past).isSome → info = {} ∧ channelKeys past = none)
  | .loadDecision => (∀ n ∈ ordered past, n < kDisconnectSteps) ∧
      ∀ answered ∈ told past, s.world.decision = verdict answered.1
  | .loadDisconnect => HasTime past ∧ ((ordered past).isSome → s.world.disconnectRequested = true)
  | _ => HasTime past

/-- Operations that publish nothing, that set neither flag and that do not
look at an order. -/
def IsPlain : Op → Prop
  | .assignStatus _ | .storeDisconnect _ | .storeDecision _ | .loadDisconnect => False
  | _ => True

/-- The operations of a wait for an answer. -/
def IsWaitOp : Op → Prop
  | .loadRunning | .now | .sleepFor _ | .loadDecision => True
  | _ => False

/-- The channel that is open after an operation. -/
def channelAfter : Op → Option (TransportKeys UInt8) → Option (TransportKeys UInt8)
  | .openChannel keys, _ => some keys
  | .closeSocket, _ => none
  | _, keys => keys

section Events

variable {o : Op} {r : Ans o} {past : List UiLabel}

/-- While the server waits for an answer it publishes nothing, sets no flag
and does not look at an order. -/
theorem isPlain_of_wait (hO : IsWaitOp o) : IsPlain o := by
  cases o <;> first
    | exact trivial
    | exact hO.elim

/-- Commands that are in time up to an event were in time before it. -/
theorem inTime_cons {l : UiLabel} (h : InTime (l :: past)) : InTime past := by
  cases l with
  | did o r => exact h.2
  | env a => cases a <;> exact h.2

/-- A plain operation leaves the published status as it is, and with it the
request or the connection that a command could answer. -/
theorem published_did (hO : IsPlain o) : published (.did o r :: past) = published past := by
  cases o <;> first
    | rfl
    | exact hO.elim

theorem onAir_did (hO : IsPlain o) : onAir (.did o r :: past) = onAir past := by
  rw [onAir, published_did hO, onAir]

theorem armed_did (hO : IsPlain o) : armed (.did o r :: past) = armed past := by
  cases o <;> first
    | rfl
    | exact hO.elim

/-- Within a wait the decision flag stays reset. -/
theorem cleared_did (hO : IsWaitOp o) : cleared (.did o r :: past) = cleared past := by
  cases o <;> first
    | rfl
    | exact hO.elim

/-- A plain operation lets an order that waits grow older by one operation. It
neither reads nor withdraws it. -/
theorem ordered_did (hO : IsPlain o) : ordered (.did o r :: past) = (ordered past).map (· + 1) := by
  cases o <;> first
    | rfl
    | exact hO.elim

/-- The keys of the channel change with the operations that open or close it,
and with no other. -/
theorem channelKeys_did : channelKeys (.did o r :: past) = channelAfter o (channelKeys past) := by
  cases o <;> rfl

/-- A wait changes nothing of what an answer leads to. -/
theorem consequences_did (hO : IsWaitOp o) : consequences (.did o r :: past) = consequences past := by
  cases o <;> first
    | rfl
    | exact hO.elim

/-- A published request stays open until it is decided, by its answer or
because it expires. -/
theorem asked_did (hO : IsPlain o) :
    asked (.did o r :: past) = ((outcome past (.did o r)).isNone && asked past) := by
  cases o <;> first
    | rfl
    | exact hO.elim

/-- An answer waits as long as its request is open, and grows older by one
operation. -/
theorem told_did (hO : IsPlain o) : told (.did o r :: past) =
    if asked (.did o r :: past) then (told past).map fun (yes, n) => (yes, n + 1) else none := by
  cases o <;> first
    | rfl
    | exact hO.elim

/-- What is due when a request is decided. -/
theorem owed_outcome {yes : Bool} (hO : IsWaitOp o) (hAsked : asked past = true)
    (hOutcome : outcome past (.did o r) = some yes) : owed (.did o r :: past) = consequences past yes := by
  cases o <;> first
    | exact hO.elim
    | simp [owed, hAsked, hOutcome]

/-- Every other operation leaves what is due after it. -/
theorem owed_tail (hO : o ≠ .loadDisconnect) (hNone : asked past = true → outcome past (.did o r) = none) :
    owed (.did o r :: past) = (owed past).tail := by
  have hTail : (match asked past, outcome past (.did o r) with
      | true, some yes => consequences past yes
      | _, _ => (owed past).tail) = (owed past).tail := by
    cases hAsked : asked past with
    | false => rfl
    | true => rw [hNone hAsked]
  cases o <;> first
    | exact hTail
    | exact absurd rfl hO

/-- A plain operation sets neither flag. -/
theorem exec_flags (hO : IsPlain o) {s s' : World} (h : s.exec o r s') :
    s'.decision = s.decision ∧ s'.disconnectRequested = s.disconnectRequested := by
  obtain ⟨_, _, _, -, rfl⟩ := World.exec_writes h
  cases o <;> first
    | exact ⟨rfl, rfl⟩
    | exact hO.elim

end Events

/-- Nothing is published that a command could answer. The operations
`due` are owed. -/
structure Resting (keys : Option (TransportKeys UInt8)) (due : List Op) (past : List UiLabel) : Prop where
  air : onAir past = false
  order : ordered past = none
  request : asked past = false
  answer : told past = none
  debt : owed past = due
  channel : channelKeys past = keys

/-- A request is published, and `ops` says what an answer to it leads to. -/
structure Asking (keys : Option (TransportKeys UInt8)) (ops : Bool → List Op) (past : List UiLabel) : Prop where
  air : onAir past = false
  order : ordered past = none
  request : asked past = true
  debt : owed past = []
  channel : channelKeys past = keys
  leads : consequences past = ops

/-- A connection with device `d` is published. The operations
`due` are owed. -/
structure Online (keys : Option (TransportKeys UInt8)) (d : UInt64) (due : List Op) (past : List UiLabel) : Prop where
  air : onAir past = true
  device : (published past).peerDeviceId = d
  request : asked past = false
  answer : told past = none
  debt : owed past = due
  channel : channelKeys past = keys

def Settled (keys : Option (TransportKeys UInt8)) (due : List Op) : Assertion Op Ans UiAction Console :=
  fun past _ => InTime past → Resting keys due past

/-- A request is published, and the decision flag is to be reset. -/
def Publishing (keys : Option (TransportKeys UInt8)) (ops : Bool → List Op) : Assertion Op Ans UiAction Console :=
  fun past _ => InTime past →
    Asking keys ops past ∧ told past = none ∧ deadline past = none ∧ cleared past = false

/-- The server waits until `limit`, with an answer at most `j`
operations old. -/
def Prompted (keys : Option (TransportKeys UInt8)) (ops : Bool → List Op) (limit : Option Time) (j : Nat) :
    Assertion Op Ans UiAction Console := fun past s => InTime past →
  Asking keys ops past ∧ cleared past = true ∧ deadline past = limit ∧
    ∀ answered ∈ told past, s.world.decision = verdict answered.1 ∧ answered.2 ≤ j

/-- A connection is published, and the disconnect flag is to be reset. -/
def Opening (keys : Option (TransportKeys UInt8)) (d : UInt64) : Assertion Op Ans UiAction Console :=
  fun past _ => InTime past → Online keys d [] past ∧ ordered past = none ∧ armed past = false

/-- A session, with an order to end it at most `j` operations old. -/
def Live (keys : Option (TransportKeys UInt8)) (d : UInt64) (due : List Op) (j : Nat) :
    Assertion Op Ans UiAction Console := fun past s => InTime past →
  Online keys d due past ∧ armed past = true ∧ ∀ n ∈ ordered past, n ≤ j ∧ s.world.disconnectRequested = true

section Stability

variable {keys : Option (TransportKeys UInt8)} {ops : Bool → List Op} {due : List Op} {limit : Option Time}
  {d : UInt64} {j : Nat} {past : List UiLabel} {s : Console}

/-- The calls of the other threads leave both flags alone. -/
theorem act_other {a : Action} (h : IsOther a) (s : World) :
    (s.act a).decision = s.decision ∧ (s.act a).disconnectRequested = s.disconnectRequested := by
  cases a <;> first
    | exact ⟨rfl, rfl⟩
    | exact h.elim

/-- After a click the waiting answer is that one, just given or
given before. -/
theorem mem_answer {yes : Bool} {answered : Bool × Nat} {t : Option (Bool × Nat)}
    (h : answered ∈ answer yes t) : answered.1 = yes ∧ (answered ∈ t ∨ answered.2 = 0) := by
  cases t with
  | none =>
      obtain rfl := Option.some.inj h
      exact ⟨rfl, Or.inr rfl⟩
  | some given =>
      simp only [answer] at h
      split at h
      · next hSame =>
          obtain rfl := Option.some.inj h
          exact ⟨hSame, Or.inl rfl⟩
      · obtain rfl := Option.some.inj h
        exact ⟨rfl, Or.inr rfl⟩

/-- A click can order something only while a connection is published. -/
theorem ordered_env (a : UiAction) (h : onAir past = false) : ordered (.env a :: past) = ordered past := by
  cases a <;> simp [ordered, h]

/-- A click can answer something only while a request is published. -/
theorem told_env (a : UiAction) (h : asked past = false) : told (.env a :: past) = told past := by
  cases a <;> simp [told, h]

/-- Where nothing is published that a command could answer, clicks change
nothing. -/
theorem Resting.env (h : Resting keys due past) (a : UiAction) : Resting keys due (.env a :: past) where
  air := h.air
  order := (ordered_env a h.air).trans h.order
  request := h.request
  answer := (told_env a h.request).trans h.answer
  debt := h.debt
  channel := h.channel

/-- Clicks neither publish a request nor withdraw one. -/
theorem Asking.env (h : Asking keys ops past) (a : UiAction) : Asking keys ops (.env a :: past) where
  air := h.air
  order := (ordered_env a h.air).trans h.order
  request := h.request
  debt := h.debt
  channel := h.channel
  leads := h.leads

/-- Clicks neither publish a connection nor end one. -/
theorem Online.env (h : Online keys d due past) (a : UiAction) : Online keys d due (.env a :: past) where
  air := h.air
  device := h.device
  request := h.request
  answer := (told_env a h.request).trans h.answer
  debt := h.debt
  channel := h.channel

/-- Nothing that the user does while nothing is published has
consequences later. -/
theorem settled_stable : Stable consoleSystem (Settled keys due) :=
  fun _ _ a _ h _ hInTime => (h (inTime_cons hInTime)).env a

theorem publishing_stable : Stable consoleSystem (Publishing keys ops) := by
  intro past s a s' h _ hInTime
  obtain ⟨hAsking, hTold, hLimit, hCleared⟩ := h (inTime_cons hInTime)
  refine ⟨hAsking.env a, ?_, hLimit, hCleared⟩
  cases a with
  | accept fingerprint => cases hCleared.symm.trans (hInTime.1 hAsking.request).1
  | reject => cases hCleared.symm.trans (hInTime.1 hAsking.request).1
  | _ => exact hTold

theorem opening_stable : Stable consoleSystem (Opening keys d) := by
  intro past s a s' h _ hInTime
  obtain ⟨hOnline, hOrdered, hArmed⟩ := h (inTime_cons hInTime)
  refine ⟨hOnline.env a, ?_, hArmed⟩
  cases a with
  | disconnect => cases hArmed.symm.trans (hInTime.1 hOnline.air)
  | _ => exact hOrdered

/-- The user may answer at any time of a prompt. Such an answer is fresh, and
the flag holds it. -/
theorem prompted_stable : Stable consoleSystem (Prompted keys ops limit j) := by
  intro past s a s' h hAct hInTime
  obtain ⟨hAsking, hCleared, hLimit, hTold⟩ := h (inTime_cons hInTime)
  refine ⟨hAsking.env a, hCleared, hLimit, fun answered hMem => ?_⟩
  have hAnswer : ∀ yes, answered ∈ answer yes (told past) → verdict yes = verdict answered.1 ∧ answered.2 ≤ j := by
    intro yes hMem
    obtain ⟨rfl, hOld | hNew⟩ := mem_answer hMem
    · exact ⟨rfl, (hTold _ hOld).2⟩
    · exact ⟨rfl, by omega⟩
  cases a with
  | accept fingerprint =>
      obtain ⟨-, rfl⟩ := hAct
      rw [told, if_pos hAsking.request] at hMem
      exact hAnswer true hMem
  | reject =>
      obtain ⟨-, rfl⟩ := hAct
      rw [told, if_pos hAsking.request] at hMem
      exact hAnswer false hMem
  | disconnect =>
      obtain ⟨-, rfl⟩ := hAct
      exact hTold answered hMem
  | look =>
      obtain rfl := hAct
      exact hTold answered hMem
  | other a =>
      obtain ⟨hOther, rfl⟩ := hAct
      rw [(act_other hOther s.world).1]
      exact hTold answered hMem

/-- The user may order the end of a connection at any time of a session. Such
an order is fresh, and the flag holds it. -/
theorem live_stable : Stable consoleSystem (Live keys d due j) := by
  intro past s a s' h hAct hInTime
  obtain ⟨hOnline, hArmed, hOrdered⟩ := h (inTime_cons hInTime)
  refine ⟨hOnline.env a, hArmed, fun n hN => ?_⟩
  cases a with
  | accept fingerprint =>
      obtain ⟨-, rfl⟩ := hAct
      exact hOrdered n hN
  | reject =>
      obtain ⟨-, rfl⟩ := hAct
      exact hOrdered n hN
  | disconnect =>
      obtain ⟨-, rfl⟩ := hAct
      refine ⟨?_, rfl⟩
      rw [ordered, if_pos hOnline.air] at hN
      rcases Option.or_eq_some_iff.mp hN with hOld | ⟨-, hNew⟩
      · exact (hOrdered n hOld).1
      · obtain rfl := Option.some.inj hNew
        exact Nat.zero_le j
  | look =>
      obtain rfl := hAct
      exact hOrdered n hN
  | other a =>
      obtain ⟨hOther, rfl⟩ := hAct
      rw [(act_other hOther s.world).2]
      exact hOrdered n hN

end Stability

/-- Operations that leave nothing published that a command could answer. -/
def IsCalm : Op → Prop
  | .assignStatus info => info.state ≠ .connected ∧ info.state ≠ .pairing
  | o => IsPlain o

section Rules

variable {o : Op} {next : Ans o → ConnProg α} {Q : α → Assertion Op Ans UiAction Console}
  {keys : Option (TransportKeys UInt8)} {ops : Bool → List Op} {due : List Op} {limit : Option Time}
  {d : UInt64} {j : Nat} {past : List UiLabel} {s s' : Console} {r : Ans o}

/-- Where no answer is unread, a plain operation is what is due. -/
theorem ok_of_plain (hO : IsPlain o) (hTold : told past = none) (hOrdered : ∀ n ∈ ordered past, n < kDisconnectSteps)
    (hDue : ∀ due ∈ (owed past).head?, o = due) : ok o past s := by
  intro _
  refine ⟨fun _ => hDue, ?_⟩
  have hTime : HasTime past := ⟨hOrdered, by simp [hTold]⟩
  cases o with
  | assignStatus info => exact hO.elim
  | loadDisconnect => exact hO.elim
  | loadDecision => exact ⟨hOrdered, by simp [hTold]⟩
  | _ => exact hTime

/-- Where nothing waits, a calm operation heeds the commands if it is the one
that is due. -/
theorem settled_ok (hO : IsCalm o) (hDue : ∀ first ∈ due.head?, o = first) (h : Settled keys due past s) :
    ok o past s := by
  intro hInTime
  have hRest := h hInTime
  have hHead : ∀ first ∈ (owed past).head?, o = first := by
    rw [hRest.debt]
    exact hDue
  cases o with
  | assignStatus info => exact ⟨fun _ => hHead, hRest.answer, by simp [hRest.order]⟩
  | storeDisconnect requested => exact hO.elim
  | storeDecision decision => exact hO.elim
  | loadDisconnect => exact hO.elim
  | _ => exact ok_of_plain (s := s) trivial hRest.answer (by simp [hRest.order]) hHead hInTime

/-- A calm operation keeps everything settled. It pays what is due. -/
theorem settled_did (hO : IsCalm o) (h : Settled keys due past s) :
    Settled (channelAfter o keys) due.tail (.did o r :: past) s' := by
  intro hInTime
  have hRest := h hInTime.2
  have hDebt : o ≠ .loadDisconnect → owed (.did o r :: past) = due.tail := by
    intro hOther
    rw [owed_tail hOther (by simp [hRest.request]), hRest.debt]
  have hChannel : channelKeys (.did o r :: past) = channelAfter o keys := by
    rw [channelKeys_did, hRest.channel]
  by_cases hPlain : IsPlain o
  · have hAsked : asked (.did o r :: past) = false := by
      rw [asked_did hPlain, hRest.request, Bool.and_false]
    have hOther : o ≠ .loadDisconnect := by
      rintro rfl
      exact hPlain
    refine ⟨(onAir_did hPlain).trans hRest.air, ?_, hAsked, ?_, hDebt hOther, hChannel⟩
    · rw [ordered_did hPlain, hRest.order]
      rfl
    · rw [told_did hPlain, hAsked]
      rfl
  · cases o with
    | assignStatus info =>
        exact ⟨decide_eq_false hO.1, rfl, decide_eq_false hO.2, rfl, hDebt (by simp), hChannel⟩
    | _ => exact absurd hO hPlain

/-- An operation that is due, or any where nothing is. -/
theorem settled_op (hO : IsCalm o) (hDue : ∀ first ∈ due.head?, o = first) (h : Settled keys due past s)
    (hNext : ∀ r past s, Settled (channelAfter o keys) due.tail past s → Safe consoleSystem ok (next r) Q past s) :
    Safe consoleSystem ok (.op o next) Q past s :=
  .op (Settled keys due) settled_stable h (fun _ _ h => settled_ok hO hDue h)
    fun _ _ r _ h _ => hNext r _ _ (settled_did hO h)

/-- An operation where nothing is due. -/
theorem quiet_op (hO : IsCalm o) (h : Settled keys [] past s)
    (hNext : ∀ r past s, Settled (channelAfter o keys) [] past s → Safe consoleSystem ok (next r) Q past s) :
    Safe consoleSystem ok (.op o next) Q past s :=
  settled_op hO (by simp) h hNext

/-- The operations of a connection that has no channel. -/
def IsEarly (o : Op) : Prop :=
  IsCalm o ∧ channelAfter o none = none

/-- A program of such operations keeps everything settled, whatever
answers it gets. -/
theorem quiet_uses {p : ConnProg α} (hP : p.Uses IsEarly) (h : Settled none [] past s) :
    Safe consoleSystem ok p (fun _ => Settled none []) past s := by
  refine Safe.frame (Settled none []) settled_stable ?_ ?_ hP h
  · exact fun o past s hO h => settled_ok hO.1 (by simp) h
  · intro o past s r s' hO h _
    have hDid : Settled (channelAfter o none) [] (.did o r :: past) s' := settled_did hO.1 h
    rwa [hO.2] at hDid

theorem quiet_ret {a : α} (h : Settled none [] past s) :
    Safe consoleSystem ok (.ret a) (fun _ => Settled none []) past s :=
  Safe.ret (Q := fun _ => Settled none []) settled_stable h

/-- An answer among those that have grown older was there before. -/
theorem mem_map_succ {t : Option (Bool × Nat)} {answered : Bool × Nat}
    (h : answered ∈ t.map fun (yes, n) => (yes, n + 1)) :
    ∃ n, answered = (answered.1, n + 1) ∧ (answered.1, n) ∈ t := by
  obtain ⟨⟨yes, n⟩, hMem, rfl⟩ := Option.map_eq_some_iff.mp h
  exact ⟨n, rfl, hMem⟩

/-- A wait that decides nothing goes on, and an answer gets older. -/
theorem prompted_did {limit' : Option Time} (hO : IsWaitOp o) (hOutcome : outcome past (.did o r) = none)
    (hLimit : deadline past = limit → deadline (.did o r :: past) = limit') (h : Prompted keys ops limit j past s)
    (hExec : consoleSystem.exec o s r s') : Prompted keys ops limit' (j + 1) (.did o r :: past) s' := by
  intro hInTime
  obtain ⟨hAsking, hCleared, hOld, hTold⟩ := h hInTime.2
  have hPlain := isPlain_of_wait hO
  have hAsked : asked (.did o r :: past) = true := by
    rw [asked_did hPlain, hOutcome, hAsking.request]
    rfl
  have hOther : o ≠ .loadDisconnect := by
    rintro rfl
    exact hPlain
  refine ⟨⟨(onAir_did hPlain).trans hAsking.air, ?_, hAsked, ?_, ?_, (consequences_did hO).trans hAsking.leads⟩,
    (cleared_did hO).trans hCleared, hLimit hOld, fun answered hMem => ?_⟩
  · rw [ordered_did hPlain, hAsking.order]
    rfl
  · rw [owed_tail hOther fun _ => hOutcome, hAsking.debt]
    rfl
  · rw [channelKeys_did, hAsking.channel]
    cases o <;> first
      | rfl
      | exact hO.elim
  · rw [told_did hPlain, if_pos hAsked] at hMem
    obtain ⟨n, hEq, hBefore⟩ := mem_map_succ hMem
    rw [(exec_flags hPlain hExec.1).1, hEq]
    exact ⟨(hTold _ hBefore).1, Nat.succ_le_succ (hTold _ hBefore).2⟩

/-- What an answer leads to is owed once the request is decided. -/
theorem decided_did {yes : Bool} (hO : IsWaitOp o) (hOutcome : outcome past (.did o r) = some yes)
    (h : Prompted keys ops limit j past s) : Settled keys (ops yes) (.did o r :: past) s' := by
  intro hInTime
  obtain ⟨hAsking, -⟩ := h hInTime.2
  have hPlain := isPlain_of_wait hO
  have hAsked : asked (.did o r :: past) = false := by
    rw [asked_did hPlain, hOutcome]
    rfl
  refine ⟨(onAir_did hPlain).trans hAsking.air, ?_, hAsked, ?_, ?_, ?_⟩
  · rw [ordered_did hPlain, hAsking.order]
    rfl
  · rw [told_did hPlain, hAsked]
    rfl
  · rw [owed_outcome hO hAsking.request hOutcome, hAsking.leads]
  · rw [channelKeys_did, hAsking.channel]
    cases o <;> first
      | rfl
      | exact hO.elim

/-- In a wait an operation heeds the commands as long as the answer is younger
than the limit, and so does the look at the flag that reads it. -/
theorem prompted_ok (hO : IsWaitOp o) (hJ : o = .loadDecision ∨ j < kAnswerSteps)
    (h : Prompted keys ops limit j past s) : ok o past s := by
  intro hInTime
  obtain ⟨hAsking, -, -, hTold⟩ := h hInTime
  have hOrdered : ∀ n ∈ ordered past, n < kDisconnectSteps := by simp [hAsking.order]
  refine ⟨fun _ => by simp [hAsking.debt], ?_⟩
  have hTime : j < kAnswerSteps → HasTime past :=
    fun hJ => ⟨hOrdered, fun answered hMem => Nat.lt_of_le_of_lt (hTold answered hMem).2 hJ⟩
  cases o with
  | loadDecision => exact ⟨hOrdered, fun answered hMem => (hTold answered hMem).1⟩
  | loadRunning => exact hTime (hJ.resolve_left (by simp))
  | now => exact hTime (hJ.resolve_left (by simp))
  | sleepFor duration => exact hTime (hJ.resolve_left (by simp))
  | _ => exact hO.elim

/-- A plain operation on a connection keeps the connection published, and pays
what is due. -/
theorem online_did (hO : IsPlain o) (h : Online keys d due past) :
    Online (channelAfter o keys) d due.tail (.did o r :: past) := by
  have hAsked : asked (.did o r :: past) = false := by
    rw [asked_did hO, h.request, Bool.and_false]
  have hOther : o ≠ .loadDisconnect := by
    rintro rfl
    exact hO
  refine ⟨(onAir_did hO).trans h.air, ?_, hAsked, ?_, ?_, ?_⟩
  · rw [published_did hO]
    exact h.device
  · rw [told_did hO, hAsked]
    rfl
  · rw [owed_tail hOther (by simp [h.request]), h.debt]
  · rw [channelKeys_did, h.channel]

/-- Between the publication of a connection and the reset of its flag, plain
operations change nothing. -/
theorem opening_op (hO : IsPlain o) (hChannel : channelAfter o keys = keys) (h : Opening keys d past s)
    (hNext : ∀ r past s, Opening keys d past s → Safe consoleSystem ok (next r) Q past s) :
    Safe consoleSystem ok (.op o next) Q past s := by
  refine .op (Opening keys d) opening_stable h (fun past s h hInTime => ?_)
    fun past s r s' h _ => hNext r _ _ fun hInTime => ?_
  · obtain ⟨hOnline, hOrdered, -⟩ := h hInTime
    exact ok_of_plain hO hOnline.answer (by simp [hOrdered]) (by simp [hOnline.debt]) hInTime
  · obtain ⟨hOnline, hOrdered, hArmed⟩ := h hInTime.2
    refine ⟨hChannel ▸ online_did hO hOnline, ?_, (armed_did hO).trans hArmed⟩
    rw [ordered_did hO, hOrdered]
    rfl

/-- A later limit on the age of an order is a weaker one. -/
theorem Live.mono {k : Nat} (h : Live keys d due j past s) (hLe : j ≤ k) : Live keys d due k past s :=
  fun hInTime => ⟨(h hInTime).1, (h hInTime).2.1,
    fun n hN => ((h hInTime).2.2 n hN).imp_left fun hJ => Nat.le_trans hJ hLe⟩

/-- A plain operation of a session makes a waiting order older by one. -/
theorem live_did (hO : IsPlain o) (h : Live keys d due j past s) (hExec : consoleSystem.exec o s r s') :
    Live (channelAfter o keys) d due.tail (j + 1) (.did o r :: past) s' := by
  intro hInTime
  obtain ⟨hOnline, hArmed, hOrdered⟩ := h hInTime.2
  refine ⟨online_did hO hOnline, (armed_did hO).trans hArmed, fun n hN => ?_⟩
  rw [ordered_did hO] at hN
  obtain ⟨m, hM, rfl⟩ := Option.map_eq_some_iff.mp hN
  rw [(exec_flags hO hExec.1).2]
  exact (hOrdered m hM).imp_left Nat.succ_le_succ

/-- An operation of a session that is due, or any where nothing is. -/
theorem live_op (hO : IsPlain o) (hDue : ∀ first ∈ due.head?, o = first) (hJ : j < kDisconnectSteps)
    (h : Live keys d due j past s)
    (hNext : ∀ r past s, Live (channelAfter o keys) d due.tail (j + 1) past s → Safe consoleSystem ok (next r) Q past s) :
    Safe consoleSystem ok (.op o next) Q past s := by
  refine .op (Live keys d due j) live_stable h (fun past s h hInTime => ?_)
    fun _ _ r _ h hExec => hNext r _ _ (live_did hO h hExec)
  obtain ⟨hOnline, -, hOrdered⟩ := h hInTime
  refine ok_of_plain hO hOnline.answer (fun n hN => Nat.lt_of_le_of_lt (hOrdered n hN).1 hJ) ?_ hInTime
  rw [hOnline.debt]
  exact hDue

/-- A look at the order that comes before the limit reads it as
it was given. -/
theorem look_ok (hJ : j < kDisconnectSteps) (h : Live keys d due j past s) : ok .loadDisconnect past s := by
  intro hInTime
  obtain ⟨hOnline, -, hOrdered⟩ := h hInTime
  refine ⟨fun hOther => absurd rfl hOther, ⟨fun n hN => Nat.lt_of_le_of_lt (hOrdered n hN).1 hJ, ?_⟩, fun hSome => ?_⟩
  · simp [hOnline.answer]
  · obtain ⟨n, hN⟩ := Option.isSome_iff_exists.mp hSome
    exact (hOrdered n hN).2

/-- A look at an order that is there obliges to say farewell. -/
theorem look_true (hDue : due = [] ∨ due = farewell d) (h : Live keys d due j past s)
    (hExec : consoleSystem.exec .loadDisconnect s true s') :
    Live keys d (farewell d) (j + 1) (.did .loadDisconnect true :: past) s' := by
  intro hInTime
  obtain ⟨⟨hAir, hDevice, hAsked, hTold, hOwed, hChannel⟩, hArmed, hOrdered⟩ := h hInTime.2
  refine ⟨⟨hAir, hDevice, ?_, ?_, ?_, hChannel⟩, hArmed, fun n hN => ?_⟩
  · simp [asked, hAsked]
  · simp [told, asked, hAsked]
  · rw [owed, hOwed, hAir, hDevice]
    rcases hDue with rfl | rfl <;> rfl
  · obtain ⟨m, hM, rfl⟩ := Option.map_eq_some_iff.mp hN
    rw [hExec.1.2]
    exact (hOrdered m hM).imp_left Nat.succ_le_succ

/-- Where a look finds none, none was given. -/
theorem look_false (h : Live keys d [] j past s) (hExec : consoleSystem.exec .loadDisconnect s false s') :
    Live keys d [] 0 (.did .loadDisconnect false :: past) s' := by
  intro hInTime
  obtain ⟨⟨hAir, hDevice, hAsked, hTold, hOwed, hChannel⟩, hArmed, hOrdered⟩ := h hInTime.2
  refine ⟨⟨hAir, hDevice, ?_, ?_, ?_, hChannel⟩, hArmed, fun n hN => ?_⟩
  · simp [asked, hAsked]
  · simp [told, asked, hAsked]
  · simp [owed, hOwed]
  · obtain ⟨m, hM, -⟩ := Option.map_eq_some_iff.mp hN
    cases hExec.1.1.trans (hOrdered m hM).2

/-- The operations of a session besides its looks at an order. -/
def IsLinkOp (o : Op) : Prop :=
  IsPlain o ∧ ∀ keys, channelAfter o keys = keys

/-- A part of a session that has no loop. -/
theorem live_uses {p : ConnProg α} {m : Nat} (hP : p.Uses IsLinkOp) (hM : p.Within m)
    (hJ : j + m ≤ kDisconnectSteps) (h : Live keys d [] j past s) :
    Safe consoleSystem ok p (fun _ => Live keys d [] (j + m)) past s := by
  induction p generalizing j m past s with
  | ret a => exact Safe.ret (Q := fun _ => Live keys d [] (j + m)) live_stable (h.mono (Nat.le_add_right j m))
  | op o next ih =>
      have hPos := hM.1
      refine live_op hP.1.1 (by simp) (by omega) h fun r past s h => ?_
      rw [hP.1.2] at h
      have hSum : j + 1 + (m - 1) = j + m := by omega
      exact hSum ▸ ih r (hP.2 r) (hM.2 r) (by omega) h
  | loop x body next => exact hM.elim

end Rules

section Server

variable {ip : String} {keys : Option (TransportKeys UInt8)} {past : List UiLabel} {s : Console}

/-- The transfers of a handshake use no channel. -/
theorem early_of_transfer {o : Op} (h : IsTransfer o) : IsEarly o := by
  cases o <;> first
    | exact ⟨trivial, rfl⟩
    | exact h.elim

theorem calm_idle : IsCalm (.assignStatus {}) := by
  simp [IsCalm]

/-- The key exchange publishes nothing and looks at no flag. -/
theorem respondIk_early (d : UInt64) (k : Key32 UInt8) : (respondIk na c d k).Uses IsEarly :=
  respondIk_uses (fun _ o => (ikOp_uses o).mono fun _ => early_of_transfer) ⟨trivial, rfl⟩ (fun _ => ⟨trivial, rfl⟩)
    ⟨trivial, rfl⟩ ⟨calm_idle, rfl⟩ d k

/-- How a prompt ends: what the answer leads to is owed. Without one it is a
refusal. -/
def Answered (keys : Option (TransportKeys UInt8)) (ops : Bool → List Op) (decision : PairingDecision) :
    Assertion Op Ans UiAction Console :=
  Settled keys (ops (decision = .approved))

/-- The wait reads an answer within three operations, and what the answer
leads to is owed afterwards. A wait that runs out owes the refusal. -/
theorem awaitDecision_safe {ops : Bool → List Op} (limit : Time) (h : Prompted keys ops (some limit) 1 past s) :
    Safe consoleSystem ok (awaitDecision limit) (Answered keys ops) past s := by
  have hRefused : ∀ past s, Settled keys (ops false) past s → Safe consoleSystem ok (.ret (.inr .pending))
      (fun e => Sum.elim (fun _ : Unit => Prompted keys ops (some limit) 1) (Answered keys ops) e) past s :=
    fun past s h => Safe.ret (a := Sum.inr PairingDecision.pending) settled_stable h
  refine .iterate (fun _ => Prompted keys ops (some limit) 1) (fun _ => prompted_stable) (fun _ => settled_stable) h
    fun _ past s h => ?_
  refine .op (Prompted keys ops (some limit) 1) prompted_stable h
    (fun _ _ h => prompted_ok (o := .loadRunning) trivial (.inr (by decide)) h) fun past s running s' h hExec => ?_
  cases running with
  | false => exact hRefused _ _ (decided_did (o := .loadRunning) trivial rfl h)
  | true =>
      refine .op (Prompted keys ops (some limit) 2) prompted_stable
        (prompted_did (o := .loadRunning) trivial rfl id h hExec)
        (fun _ _ h => prompted_ok (o := .now) trivial (.inr (by decide)) h) fun past s now s' h hExec => ?_
      by_cases hLate : now ≥ limit
      · simp only [Prog.ret_bind, hLate, if_true]
        apply hRefused
        intro hInTime
        have hOutcome : outcome past (.did .now now) = some false := by
          simp [outcome, expires, (h hInTime.2).2.2.1, hLate]
        have hRefusal : Settled keys (ops false) (.did .now now :: past) s' := decided_did (o := .now) trivial hOutcome h
        exact hRefusal hInTime
      · simp only [Prog.ret_bind, hLate, if_false]
        have hWaits : Prompted keys ops (some limit) 3 (.did .now now :: past) s' := by
          intro hInTime
          have hLimit := (h hInTime.2).2.2.1
          have hOutcome : outcome past (.did .now now) = none := by
            simp [outcome, expires, hLimit, hLate]
          exact prompted_did (o := .now) trivial hOutcome (fun hLimit => by simp [deadline, hLimit]) h hExec hInTime
        refine .op (Prompted keys ops (some limit) 3) prompted_stable hWaits
          (fun _ _ h => prompted_ok (o := .loadDecision) trivial (.inl rfl) h) fun past s decision s' h hExec => ?_
        cases decision with
        | pending =>
            have hNone : Prompted keys ops (some limit) 0 (.did .loadDecision .pending :: past) s' := by
              intro hInTime
              obtain ⟨hAsking, hCleared, hLimit, hTold⟩ := prompted_did (o := .loadDecision) trivial rfl id h hExec hInTime
              refine ⟨hAsking, hCleared, hLimit, fun answered hMem => ?_⟩
              -- An answer that was given would have been read.
              obtain ⟨hRead, -⟩ := hTold answered hMem
              have hPending : s'.world.decision = .pending := by
                rw [hExec.1.2]
                exact hExec.1.1.symm
              cases hYes : answered.1 <;> rw [hPending, hYes] at hRead <;> cases hRead
            refine .op (Prompted keys ops (some limit) 0) prompted_stable hNone
              (fun _ _ h => prompted_ok (o := .sleepFor _) trivial (.inr (by decide)) h) fun past s _ s' h hExec => ?_
            exact Safe.ret (a := Sum.inl ()) prompted_stable
              (prompted_did (o := .sleepFor (milliseconds 100)) trivial rfl id h hExec)
        | approved =>
            have hApproval : Settled keys (ops true) (.did .loadDecision .approved :: past) s' :=
              decided_did (o := .loadDecision) trivial rfl h
            exact Safe.ret (a := Sum.inr PairingDecision.approved) settled_stable hApproval
        | rejected =>
            have hRefusal : Settled keys (ops false) (.did .loadDecision .rejected :: past) s' :=
              decided_did (o := .loadDecision) trivial rfl h
            exact Safe.ret (a := Sum.inr PairingDecision.rejected) settled_stable hRefusal

/-- What a prompt publishes. -/
def requestInfo (na : Sodium UInt8) (c : TcpServer) (ip : String) (d : UInt64) (k : Key32 UInt8) : ConnectionInfo :=
  { state := .pairing, peerDeviceId := d, peerIp := ip,
    pairingFingerprint := computeFingerprint na k c.ownStatic.publicKey }

/-- The rule for a prompt. What is known before it decides what the answer
leads to. -/
theorem prompt_safe {B : Assertion Op Ans UiAction Console} (hB : Stable consoleSystem B) {d : UInt64}
    {k : Key32 UInt8} {ops : Bool → List Op} (hSettled : ∀ past s, B past s → Settled keys [] past s)
    (hOps : ∀ past s, B past s → InTime past →
      consequences (.did (.assignStatus (requestInfo na c ip d k)) () :: past) = ops)
    (h : B past s) : Safe consoleSystem ok (prompt na c ip d k) (Answered keys ops) past s := by
  refine .op B hB h (fun past s h hInTime => ?_) fun past s _ s' h _ => ?_
  · have hRest := hSettled past s h hInTime
    exact ⟨fun _ => by simp [hRest.debt], hRest.answer, by simp [hRest.order]⟩
  refine .op (Publishing keys ops) publishing_stable ?_ (fun past s h hInTime => ?_) fun past s _ s' h _ => ?_
  · intro hInTime
    have hRest := hSettled past s h hInTime.2
    refine ⟨⟨rfl, rfl, rfl, ?_, hRest.channel, hOps past s h hInTime.2⟩, rfl, rfl, rfl⟩
    rw [owed_tail (by simp) (fun _ => rfl), hRest.debt]
    rfl
  · obtain ⟨hAsking, hTold, -⟩ := h hInTime
    exact ⟨fun _ => by simp [hAsking.debt], by simp [hAsking.order], by simp [hTold]⟩
  have hPrompted : Prompted keys ops none 0 (.did (.storeDecision .pending) () :: past) s' := by
    intro hInTime
    obtain ⟨hAsking, hTold, hLimit, -⟩ := h hInTime.2
    have hAsked : asked (.did (.storeDecision .pending) () :: past) = true := hAsking.request
    refine ⟨⟨hAsking.air, congrArg (Option.map _) hAsking.order, hAsked, ?_, hAsking.channel, hAsking.leads⟩,
      rfl, hLimit, fun answered hMem => ?_⟩
    · rw [owed_tail (by simp) (fun _ => rfl), hAsking.debt]
      rfl
    · change answered ∈ if asked (.did (.storeDecision .pending) () :: past) then
        (told past).map fun (yes, n) => (yes, n + 1) else none at hMem
      rw [if_pos hAsked, hTold] at hMem
      cases hMem
  refine .op (Prompted keys ops none 0) prompted_stable hPrompted
    (fun _ _ h => prompted_ok (o := .now) trivial (.inr (by decide)) h) fun past s start s' h hExec => ?_
  refine awaitDecision_safe _ fun hInTime => ?_
  have hLimit := (h hInTime.2).2.2.1
  have hOutcome : outcome past (.did .now start) = none := by
    simp [outcome, expires, hLimit]
  exact prompted_did (o := .now) trivial hOutcome (fun _ => by simp [deadline, hLimit]) h hExec hInTime

/-- A rejection that closes the connection once its message is sent. -/
theorem refuse_safe {o : Op} {β : Type} {Q : Option β → Assertion Op Ans UiAction Console} (hO : IsCalm o)
    (hChannel : channelAfter o keys = keys) (hQ : Q none = Settled none [])
    (h : Settled keys [o, .closeSocket, .assignStatus {}] past s) :
    Safe consoleSystem ok (.op o fun _ => (reset : ConnProg (Option β))) Q past s := by
  refine settled_op hO (by simp) h fun _ past s h => ?_
  rw [hChannel] at h
  refine settled_op (o := .closeSocket) trivial (by simp) h fun _ past s h => ?_
  refine settled_op calm_idle (by simp) h fun _ past s h => ?_
  exact Safe.ret_of (a := none) (Settled none []) hQ settled_stable h

/-- The key that a peer has presented stays known until it is asked about. -/
def Presented (k : Key32 UInt8) : Assertion Op Ans UiAction Console :=
  fun past s => Settled none [] past s ∧ presented past = some k

/-- No other thread changes which key a peer has presented. -/
theorem presented_stable {k : Key32 UInt8} : Stable consoleSystem (Presented k) := by
  intro past s a s' h hAct
  exact ⟨settled_stable past s a s' h.1 hAct, h.2⟩

/-- The exchange of the public keys. -/
def KeyGiven : Option (Key32 UInt8) → Assertion Op Ans UiAction Console
  | none => Settled none []
  | some k => Presented k

/-- After the exchange of the public keys the presented key is known. -/
theorem exchange_safe {limit : Time} {data : List UInt8} (h : Settled none [] past s) :
    Safe consoleSystem ok (exchange .rawPubkey data 32 limit) KeyGiven past s := by
  refine quiet_op (o := .sendAll .rawPubkey data) trivial h fun sent past s h => ?_
  cases sent with
  | false => exact Safe.ret (a := (none : Option (Key32 UInt8))) settled_stable h
  | true =>
      refine .op (Settled none []) settled_stable h
        (fun _ _ h => settled_ok (o := .recvAll .rawPubkey 32 limit) trivial (by simp) h) fun past s key s' h _ => ?_
      have hQuiet : Settled none [] (.did (.recvAll .rawPubkey 32 limit) key :: past) s' :=
        settled_did (o := .recvAll .rawPubkey 32 limit) trivial h
      cases key with
      | none => exact Safe.ret (a := (none : Option (Key32 UInt8))) settled_stable hQuiet
      | some k => exact Safe.ret (a := some k) presented_stable ⟨hQuiet, rfl⟩

/-- Pairing asks the user and then does what the answer says: it stores the
key and sends the approval, or sends the rejection. -/
theorem pair_safe {d : UInt64} (h : Settled none [] past s) :
    Safe consoleSystem ok (pair na c ip d) (fun _ => Settled none []) past s := by
  refine quiet_op trivial h fun now past s h => ?_
  simp only [Prog.bind_def, Prog.ret_bind]
  refine Safe.bind ((exchange_safe h).mono ?_)
  intro received past s h
  cases received with
  | none => exact quiet_uses (drop_uses ⟨trivial, rfl⟩) h
  | some k =>
      have hPairing : ∀ past s, Presented k past s → InTime past →
          consequences (.did (.assignStatus (requestInfo na c ip d k)) () :: past) = pairing d (some k) := by
        intro past s h hInTime
        simp only [consequences, channelKeys, published, presented, requestInfo, (h.1 hInTime).channel, h.2]
      refine Safe.bind ((prompt_safe presented_stable (fun _ _ h => h.1) hPairing h).mono ?_)
      intro decision past s h
      cases decision with
      | pending => exact refuse_safe trivial rfl rfl h
      | rejected => exact refuse_safe trivial rfl rfl h
      | approved =>
          have hDue : Settled none [.sendAll .decision [kPairingApproved], .remember d k] past s := h
          refine settled_op (o := .sendAll .decision [kPairingApproved]) trivial (by simp) hDue fun _ past s h => ?_
          refine settled_op (o := .remember d k) trivial (by simp) h fun _ past s h => ?_
          exact quiet_ret h

/-- In the whole handshake every answer is heeded, and nothing is
owed after it. -/
theorem handshake_safe (h : Settled none [] past s) :
    Safe consoleSystem ok (handshake na c ip) (fun _ => Settled none []) past s := by
  refine quiet_op trivial h fun now past s h => ?_
  simp only [Prog.bind_def, Prog.ret_bind]
  refine Safe.bind ((quiet_uses (exchange_uses ⟨trivial, rfl⟩ ⟨trivial, rfl⟩) h).mono ?_)
  intro id past s h
  cases id with
  | none => exact quiet_uses (drop_uses ⟨trivial, rfl⟩) h
  | some id =>
      refine quiet_op trivial h fun stored past s h => ?_
      refine quiet_op trivial h fun now past s h => ?_
      simp only [Prog.ret_bind]
      refine Safe.bind ((quiet_uses (exchange_uses ⟨trivial, rfl⟩ ⟨trivial, rfl⟩) h).mono ?_)
      intro flag past s h
      cases flag with
      | none => exact quiet_uses (drop_uses ⟨trivial, rfl⟩) h
      | some flag =>
          have hPair : Safe consoleSystem ok
              ((pair na c ip (decodeDeviceId id)).bind (respondAfter na c (decodeDeviceId id)))
              (fun _ => Settled none []) past s :=
            pair_respond_safe (pair_safe h) (fun _ _ h => quiet_ret h)
              fun _ _ _ h => quiet_uses (respondIk_early _ _) h
          exact branch_cases na c ip _ stored (flag.only != 0)
            (P := (Safe consoleSystem ok · (fun _ => Settled none []) past s)) hPair
            fun k _ _ => quiet_uses (respondIk_early _ _) h

/-- What a session publishes first. -/
def sessionInfo (ip : String) (d : UInt64) (keys : TransportKeys UInt8) : ConnectionInfo :=
  { state := .connected, peerDeviceId := d, peerIp := ip, audioKey := keys.recvKey }

/-- The way to a session is free, and its first operation may be due. -/
def Passed (ip : String) (d : UInt64) (keys : TransportKeys UInt8) : Option Unit → Assertion Op Ans UiAction Console
  | none => Settled none []
  | some () => fun past s => ∃ due, (∀ first ∈ due.head?, .assignStatus (sessionInfo ip d keys) = first) ∧
      due.tail = [] ∧ Settled (some keys) due past s

/-- The way to a session stays free whatever the other threads do. -/
theorem passed_stable {d : UInt64} {keys : TransportKeys UInt8} (passed : Option Unit) :
    Stable consoleSystem (Passed ip d keys passed) := by
  intro past s a s' h hAct
  cases passed with
  | none => exact settled_stable past s a s' h hAct
  | some _ =>
      obtain ⟨due, hFirst, hTail, hSettled⟩ := h
      exact ⟨due, hFirst, hTail, settled_stable past s a s' hSettled hAct⟩

/-- A kicked device is let in or sent away as the user has answered, before
its session begins. -/
theorem reapprove_safe {d : UInt64} {ik : IkResult UInt8} (h : Settled (some ik.keys) [] past s) :
    Safe consoleSystem ok (reapprove na c ip d ik) (Passed ip d ik.keys) past s := by
  refine quiet_op trivial h fun kicked past s h => ?_
  cases kicked with
  | false => exact Safe.ret (a := some ()) (passed_stable (some ())) ⟨[], by simp, rfl, h⟩
  | true =>
      simp only [Prog.bind_def, Prog.ret_bind, if_true]
      have hReadmission : ∀ past s, Settled (some ik.keys) [] past s → InTime past →
          consequences (.did (.assignStatus (requestInfo na c ip d ik.peerStatic)) () :: past) =
            readmission d ip ik.keys := by
        intro past s h hInTime
        simp only [consequences, channelKeys, published, requestInfo, (h hInTime).channel]
      refine Safe.bind ((prompt_safe settled_stable (fun _ _ h => h) hReadmission h).mono ?_)
      intro decision past s h
      cases decision with
      | pending => exact refuse_safe (o := .channelSend kMsgGoAway []) trivial rfl rfl h
      | rejected => exact refuse_safe (o := .channelSend kMsgGoAway []) trivial rfl rfl h
      | approved =>
          have hDue : Settled (some ik.keys) [.kickedErase d, .assignStatus (sessionInfo ip d ik.keys)] past s := h
          refine settled_op (o := .kickedErase d) trivial (by simp) hDue fun _ past s h => ?_
          exact Safe.ret (a := some ()) (passed_stable (some ())) ⟨_, by simp, rfl, h⟩

theorem dispatch_link (link : Link) (msgType : UInt8) (payload : List UInt8) :
    (dispatch link msgType payload).Uses IsLinkOp :=
  dispatch_performs (fun _ _ => ⟨trivial, fun _ => rfl⟩) ⟨trivial, fun _ => rfl⟩ (fun _ => ⟨trivial, fun _ => rfl⟩)
    (fun _ => ⟨trivial, fun _ => rfl⟩) (fun _ => ⟨trivial, fun _ => rfl⟩) (fun _ => ⟨trivial, fun _ => rfl⟩)
    link msgType payload

/-- A message is answered by at most two operations, so it delays the next
look at an order by no more. -/
theorem dispatch_within (link : Link) (msgType : UInt8) (payload : List UInt8) :
    (dispatch link msgType payload).Within 2 := by
  unfold dispatch
  split
  · cases decodeMonitorList payload <;> simp
  split
  · cases decodeAudioSettings payload <;> simp
  split
  · unfold answerPing
    cases decodePingSeq payload <;> simp
  split
  · unfold receivePong
    cases decodePingSeq payload with
    | none => exact trivial
    | some seq =>
        by_cases hSeq : link.pingInFlightSeq = some seq
        · simp [hSeq]
        · simp [hSeq]
  split
  · simp [receiveClipboard]
  · exact trivial

/-- So is the time between two heartbeats. -/
theorem keepAlive_within (link : Link) (now : Time) : (keepAlive link now).Within 2 := by
  refine Prog.Within.bind (m := 1) (n := 1) ?_ fun link => ?_
  · unfold sendHeartbeat
    split <;> simp
  · unfold sendProbe
    split <;> simp

/-- How the message loop ends: the order to disconnect has been seen, and is
still there, or not. -/
def Left (keys : Option (TransportKeys UInt8)) (d : UInt64) : Assertion Op Ans UiAction Console :=
  fun past s => Live keys d [] 11 past s ∨
    Live keys d (farewell d) 11 past s ∧ s.world.disconnectRequested = true

theorem left_stable {d : UInt64} : Stable consoleSystem (Left keys d) := by
  rintro past s a s' (h | ⟨h, hRequested⟩) hAct
  · exact Or.inl (live_stable past s a s' h hAct)
  · refine Or.inr ⟨live_stable past s a s' h hAct, ?_⟩
    cases a with
    | look =>
        obtain rfl := hAct
        exact hRequested
    | disconnect =>
        obtain ⟨-, rfl⟩ := hAct
        rfl
    | accept fingerprint =>
        obtain ⟨-, rfl⟩ := hAct
        exact hRequested
    | reject =>
        obtain ⟨-, rfl⟩ := hAct
        exact hRequested
    | other a =>
        obtain ⟨hOther, rfl⟩ := hAct
        exact (act_other hOther s.world).2.trans hRequested

/-- A round of the message loop looks at the flag before it receives.
Then an order that arrives meanwhile is at most nine operations old at
the next look. -/
theorem sessionRound_safe {d : UInt64} (link : Link) (h : Live keys d [] 9 past s) :
    Safe consoleSystem ok (sessionRound link) (Sum.elim (fun _ => Live keys d [] 9) fun _ => Left keys d) past s := by
  have hDone : ∀ {j} past s, j ≤ 11 → Live keys d [] j past s → Safe consoleSystem ok (.ret (.inr ()))
      (Sum.elim (fun _ : Link => Live keys d [] 9) fun _ : Unit => Left keys d) past s :=
    fun past s hJ h => Safe.ret (a := Sum.inr ()) left_stable (Or.inl (h.mono hJ))
  have hRest : ∀ link past s, Live keys d [] 5 past s → Safe consoleSystem ok (sessionRound.rest link)
      (Sum.elim (fun _ => Live keys d [] 9) fun _ => Left keys d) past s := by
    intro link past s h
    refine live_op (o := .now) trivial (by simp) (by decide) h fun now past s h => ?_
    refine live_op (o := .loadHeartbeatTimeout) trivial (by simp) (by decide) h fun heartbeatTimeout past s h => ?_
    simp only [Prog.ret_bind]
    split
    · exact hDone past s (by decide) h
    · refine Safe.bind ((live_uses (keepAlive_uses (fun _ _ => ⟨trivial, fun _ => rfl⟩) link now)
        (keepAlive_within link now) (by decide) h).mono ?_)
      exact fun link past s h => Safe.ret (a := Sum.inl link) live_stable h
  refine live_op (o := .loadRunning) trivial (by simp) (by decide) h fun running past s h => ?_
  cases running with
  | false => exact hDone past s (by decide) h
  | true =>
      refine .op (Live keys d [] 10) live_stable h (fun _ _ h => look_ok (by decide) h)
        fun past s requested s' h hExec => ?_
      cases requested with
      | true =>
          have hSeen : s'.world.disconnectRequested = true := by
            rw [hExec.1.2]
            exact hExec.1.1.symm
          exact Safe.ret (a := Sum.inr ()) left_stable (Or.inr ⟨look_true (Or.inl rfl) h hExec, hSeen⟩)
      | false =>
          refine live_op (o := .now) trivial (by simp) (by decide) (look_false h hExec) fun start past s h => ?_
          refine live_op (o := .channelReceive _) trivial (by simp) (by decide) h fun result past s h => ?_
          cases result with
          | closed => exact hDone past s (by decide) h
          | timeout => exact hRest link past s (h.mono (by decide))
          | error =>
              exact live_op (o := .now) trivial (by simp) (by decide) h fun now past s h =>
                hRest _ past s (h.mono (by decide))
          | ok msgType payload =>
              refine live_op (o := .now) trivial (by simp) (by decide) h fun now past s h => ?_
              simp only [Prog.ret_bind, Prog.bind_def]
              refine Safe.bind ((live_uses (dispatch_link _ msgType payload) (dispatch_within _ msgType payload)
                (by decide) h).mono ?_)
              exact fun link past s h => hRest link past s h

/-- The end of a connection, with a farewell if it was asked for. -/
theorem leave_safe {d : UInt64} {due : List Op} {j : Nat} (hDue : due = [] ∨
      due = [.setActiveChannel false, .closeSocket, .assignStatus {}]) (hJ : j ≤ 14) (h : Live keys d due j past s) :
    Safe consoleSystem ok (.op (.setActiveChannel false) fun _ => .op .closeSocket fun _ => .op (.assignStatus {}) .ret)
      (fun _ => Settled none []) past s := by
  refine live_op (o := .setActiveChannel false) trivial (by rcases hDue with rfl | rfl <;> simp)
    (Nat.lt_of_le_of_lt hJ (by decide)) h fun _ past s h => ?_
  refine live_op (o := .closeSocket) trivial (by rcases hDue with rfl | rfl <;> simp)
    (Nat.lt_of_le_of_lt (Nat.succ_le_succ hJ) (by decide)) h fun _ past s h => ?_
  refine .op _ live_stable h (fun past s h hInTime => ?_) fun past s _ s' h _ => quiet_ret fun hInTime => ?_
  · obtain ⟨hOnline, -⟩ := h hInTime
    refine ⟨fun _ => ?_, hOnline.answer, fun _ => ⟨rfl, hOnline.channel⟩⟩
    rw [hOnline.debt]
    rcases hDue with rfl | rfl <;> simp
  · obtain ⟨hOnline, -⟩ := h hInTime.2
    refine ⟨rfl, rfl, rfl, rfl, ?_, hOnline.channel⟩
    rw [owed_tail (by simp) (fun _ => rfl), hOnline.debt]
    rcases hDue with rfl | rfl <;> rfl

/-- A session looks at its order in every round, and follows it with the
farewell and the mark as kicked. -/
theorem session_safe {d : UInt64} {ik : IkResult UInt8} (h : Passed ip d ik.keys (some ()) past s) :
    Safe consoleSystem ok (session c ip d ik) (fun _ => Settled none []) past s := by
  refine .op (Passed ip d ik.keys (some ())) (passed_stable (some ())) h (fun past s h hInTime => ?_)
    fun past s _ s' h _ => ?_
  · obtain ⟨due, hFirst, -, hSettled⟩ := h
    have hRest := hSettled hInTime
    refine ⟨fun _ => ?_, hRest.answer, by simp [hRest.order]⟩
    rw [hRest.debt]
    exact hFirst
  have hOpening : Opening (some ik.keys) d (.did (.assignStatus (sessionInfo ip d ik.keys)) () :: past) s' := by
    intro hInTime
    obtain ⟨due, -, hTail, hSettled⟩ := h
    have hRest := hSettled hInTime.2
    refine ⟨⟨rfl, rfl, rfl, rfl, ?_, hRest.channel⟩, rfl, rfl⟩
    rw [owed_tail (by simp) (fun _ => rfl), hRest.debt, hTail]
  refine opening_op (o := .setActiveChannel true) trivial rfl hOpening fun _ past s h => ?_
  refine opening_op (o := .channelSend kMsgAudioPort _) trivial rfl h fun _ past s h => ?_
  refine .op (Opening (some ik.keys) d) opening_stable h (fun past s h hInTime => ?_) fun past s _ s' h hExec => ?_
  · obtain ⟨hOnline, hOrdered, -⟩ := h hInTime
    exact ⟨fun _ => by simp [hOnline.debt], by simp [hOrdered], by simp [hOnline.answer]⟩
  have hLive : Live (some ik.keys) d [] 0 (.did (.storeDisconnect false) () :: past) s' := by
    intro hInTime
    obtain ⟨⟨hAir, hDevice, hAsked, hTold, hOwed, hChannel⟩, hOrdered, -⟩ := h hInTime.2
    refine ⟨⟨hAir, hDevice, hAsked, ?_, ?_, hChannel⟩, rfl, fun n hN => ?_⟩
    · simp [told, asked, hAsked]
    · rw [owed_tail (by simp) (fun _ => rfl), hOwed]
      rfl
    · obtain ⟨m, hM, -⟩ := Option.map_eq_some_iff.mp hN
      rw [hOrdered] at hM
      cases hM
  refine live_op (o := .now) trivial (by simp) (by decide) hLive fun lastHeard past s h => ?_
  refine live_op (o := .now) trivial (by simp) (by decide) h fun lastHeartbeatSent past s h => ?_
  refine live_op (o := .now) trivial (by simp) (by decide) h fun lastPingSent past s h => ?_
  simp only [Prog.bind_def, Prog.ret_bind]
  refine Safe.bind ((Safe.iterate (fun _ => Live (some ik.keys) d [] 9) (fun _ => live_stable)
    (fun _ => left_stable) (h.mono (by decide)) fun link past s h => sessionRound_safe link h).mono ?_)
  intro _ past s h
  refine .op (Left (some ik.keys) d) left_stable h (fun past s h => ?_) fun past s requested s' h hExec => ?_
  · rcases h with h | ⟨h, -⟩
    · exact look_ok (by decide) h
    · exact look_ok (by decide) h
  cases requested with
  | false =>
      rcases h with h | ⟨-, hSeen⟩
      · exact leave_safe (Or.inl rfl) (by decide) (look_false h hExec)
      · cases hExec.1.1.trans hSeen
  | true =>
      have hFarewell : Live (some ik.keys) d (farewell d) 12 (.did .loadDisconnect true :: past) s' := by
        rcases h with h | ⟨h, -⟩
        · exact look_true (Or.inl rfl) h hExec
        · exact look_true (Or.inr rfl) h hExec
      refine live_op (o := .channelSend kMsgGoAway []) trivial (by simp [farewell]) (by decide) hFarewell
        fun _ past s h => ?_
      refine live_op (o := .kickedInsert d) trivial (by simp [farewell]) (by decide) h fun _ past s h => ?_
      exact leave_safe (Or.inr rfl) (by decide) h

/-- Serving one client heeds every command, and leaves nothing to be done. -/
theorem serve_safe (h : Settled none [] past s) :
    Safe consoleSystem ok (serve na c ip) (fun _ => Settled none []) past s := by
  refine Safe.bind ((handshake_safe h).mono ?_)
  intro result past s h
  cases result with
  | none => exact quiet_ret h
  | some result =>
      refine quiet_op (o := .openChannel result.2.keys) trivial h fun _ past s h => ?_
      simp only [Prog.bind_def, Prog.ret_bind]
      refine Safe.bind ((reapprove_safe h).mono ?_)
      intro passed past s h
      cases passed with
      | none => exact quiet_ret h
      | some _ => exact session_safe h

/-- The server thread heeds every command in every round, for every sequence
of clients. -/
theorem run_safe (h : Settled none [] past s) : Safe consoleSystem ok (run na c) (fun _ => Settled none []) past s := by
  apply run_rule na c (C := IsEarly) settled_stable ?_ ⟨trivial, rfl⟩ fun _ => ⟨trivial, rfl⟩
  · exact fun past s h => settled_ok (o := .accept) trivial (by simp) h
  · exact fun past s s' h _ => settled_did (o := .accept) trivial h
  · exact fun past s ip s' h _ => serve_safe (settled_did (o := .accept) trivial h)
  · exact h
  · intro o next Q past s hO h hNext
    refine quiet_op hO.1 h fun r past s h => hNext r past s ?_
    rwa [hO.2] at h

end Server

/-- A click by itself disregards nothing. -/
theorem heeded_env {past : List UiLabel} (h : Heeded past) (a : UiAction) : Heeded (.env a :: past) where
  disconnect_read _ _ hPast := by cases hPast
  disconnect_closes _ _ _ hPast := by cases hPast
  answer_read _ _ hPast := by cases hPast
  answer_kept _ _ _ hPast := by cases hPast
  carried_out _ _ _ hPast := by cases hPast
  answer_decides l older hPast hAsked hNot := by
    obtain ⟨rfl, rfl⟩ := List.cons.inj hPast
    cases hAsked.symm.trans hNot
  disconnect_soon n hN := by
    cases a with
    | disconnect =>
        rw [ordered] at hN
        split at hN
        · rcases Option.or_eq_some_iff.mp hN with hOld | ⟨-, hNew⟩
          · exact h.disconnect_soon n hOld
          · obtain rfl := Option.some.inj hNew
            exact Nat.zero_le _
        · exact h.disconnect_soon n hN
    | _ => exact h.disconnect_soon n hN
  answer_soon answered hMem := by
    have hAnswer : ∀ yes, answered ∈ (if asked past then answer yes (told past) else told past) →
        answered.2 ≤ kAnswerSteps := by
      intro yes hMem
      split at hMem
      · rcases (mem_answer hMem).2 with hOld | hNew
        · exact h.answer_soon _ hOld
        · rw [hNew]
          exact Nat.zero_le _
      · exact h.answer_soon _ hMem
    cases a with
    | accept fingerprint => exact hAnswer true hMem
    | reject => exact hAnswer false hMem
    | _ => exact h.answer_soon answered hMem

section Did

variable {o : Op} {r : Ans o} {past : List UiLabel} {s s' : Console}

/-- An order that was younger than its limit before an operation has at most
reached it afterwards. -/
theorem ordered_did_le (hOrdered : ∀ n ∈ ordered past, n < kDisconnectSteps) :
    ∀ n ∈ ordered (.did o r :: past), n ≤ kDisconnectSteps := by
  have hCount : ∀ n ∈ (ordered past).map (· + 1), n ≤ kDisconnectSteps := by
    intro n hN
    obtain ⟨m, hM, rfl⟩ := Option.map_eq_some_iff.mp hN
    exact hOrdered m hM
  cases o <;> first
    | exact hCount
    | exact fun _ hN => by cases hN

/-- So has an answer. -/
theorem told_did_le (hTold : ∀ answered ∈ told past, answered.2 < kAnswerSteps) :
    ∀ answered ∈ told (.did o r :: past), answered.2 ≤ kAnswerSteps := by
  have hCount : ∀ answered ∈ (if asked (.did o r :: past) then
      (told past).map fun (yes, n) => (yes, n + 1) else none), answered.2 ≤ kAnswerSteps := by
    intro answered hMem
    split at hMem
    · obtain ⟨n, hEq, hOld⟩ := mem_map_succ hMem
      rw [hEq]
      exact hTold _ hOld
    · cases hMem
  cases o <;> first
    | exact hCount
    | exact fun _ hMem => by cases hMem

/-- No answer is left once it is read as given. -/
theorem told_loadDecision {d : PairingDecision} (hRead : ∀ answered ∈ told past, d = verdict answered.1) :
    ∀ answered ∈ told (.did .loadDecision d :: past), answered.2 ≤ kAnswerSteps := by
  intro answered hMem
  rw [told_did (o := .loadDecision) trivial] at hMem
  split at hMem
  · next hAsked =>
      obtain ⟨n, -, hOld⟩ := mem_map_succ hMem
      rw [hRead _ hOld] at hAsked
      cases hYes : answered.1 <;> rw [hYes] at hAsked <;> cases hAsked
  · cases hMem

/-- A request that ends is decided as it was answered: by the answer that is
read, and where it expires no approval is left unread. -/
theorem decides_of_ok (hOk : ok o past s) (hInTime : InTime (.did o r :: past)) (hExec : consoleSystem.exec o s r s')
    (hAsked : asked past = true) (hEnded : asked (.did o r :: past) = false) :
    ∀ answered ∈ told past, owed (.did o r :: past) = consequences past answered.1 := by
  intro answered hMem
  obtain ⟨-, hOp⟩ := hOk hInTime.2
  have hExpired : expires past (.did o r) = true → answered.1 = false :=
    fun hExpires => hInTime.1 hExpires answered hMem
  cases o with
  | assignStatus info =>
      rw [hOp.1] at hMem
      cases hMem
  | loadDecision =>
      have hRead : r = verdict answered.1 := hExec.1.1.trans (hOp.2 answered hMem)
      refine owed_outcome trivial hAsked ?_
      rw [hRead]
      cases answered.1 <;> rfl
  | loadRunning =>
      cases hRunning : r with
      | true =>
          rw [hRunning] at hEnded
          cases hAsked.symm.trans hEnded
      | false =>
          rw [hRunning] at hExpired
          rw [hExpired rfl]
          exact owed_outcome trivial hAsked rfl
  | now =>
      by_cases hLate : expires past (.did .now r) = true
      · rw [hExpired hLate]
        exact owed_outcome trivial hAsked (by simp [outcome, hLate])
      · rw [asked_did (o := .now) trivial] at hEnded
        simp [outcome, hLate, hAsked] at hEnded
  | _ => cases hAsked.symm.trans hEnded

/-- An operation that heeds the commands disregards none of those that were
given in time. -/
theorem heeded_did (hOk : ok o past s) (hInTime : InTime (.did o r :: past))
    (hExec : consoleSystem.exec o s r s') : Heeded (.did o r :: past) := by
  have hOp := hOk hInTime.2
  refine ⟨?_, ?_, ?_, ?_, ?_, ?_, ?_, ?_⟩
  · rintro r' older hPast hSome
    cases hPast
    exact hExec.1.1.trans (hOp.2.2 hSome)
  · cases o with
    | assignStatus info => exact fun _ hN => by cases hN
    | loadDecision => exact ordered_did_le hOp.2.1
    | loadDisconnect => exact ordered_did_le hOp.2.1.1
    | _ => exact ordered_did_le hOp.2.1
  · rintro info r' older hPast hSome
    cases hPast
    exact hOp.2.2 hSome
  · rintro d older hPast answered hMem
    cases hPast
    exact hExec.1.1.trans (hOp.2.2 answered hMem)
  · cases o with
    | assignStatus info => exact fun _ hMem => by cases hMem
    | loadDecision => exact told_loadDecision fun answered hMem => hExec.1.1.trans (hOp.2.2 answered hMem)
    | loadDisconnect => exact told_did_le hOp.2.1.2
    | _ => exact told_did_le hOp.2.2
  · rintro info r' older hPast
    cases hPast
    exact hOp.2.1
  · rintro l older hPast hAsked hEnded
    obtain ⟨rfl, rfl⟩ := List.cons.inj hPast
    exact decides_of_ok hOk hInTime hExec hAsked hEnded
  · rintro o' r' older hPast hOther
    cases hPast
    exact hOp.1 hOther

end Did

/-- In a run in which every command comes after the reset of its flag, no
answer contradicts one that was not read yet, and no request expires before an
approval of it is read, every command is heeded: an order to disconnect ends
its connection, and an answer decides its request. -/
theorem run_heeds {w s : Console} {past : List UiLabel} {p : ConnProg Unit}
    (hRun : Run consoleSystem (run na c) w past p s) (hInTime : InTime past) : Heeded past := by
  have hQuiet : Settled none [] [] w := fun _ => ⟨rfl, rfl, rfl, rfl, rfl, rfl⟩
  have hStart : Heeded [] := by
    constructor
    · exact fun _ _ hPast => by cases hPast
    · exact fun _ hN => by cases hN
    · exact fun _ _ _ hPast => by cases hPast
    · exact fun _ _ hPast => by cases hPast
    · exact fun _ hMem => by cases hMem
    · exact fun _ _ _ hPast => by cases hPast
    · exact fun _ _ hPast => by cases hPast
    · exact fun _ _ _ hPast => by cases hPast
  refine (run_safe hQuiet).invariant (fun past _ => InTime past → Heeded past) ?_ ?_ (fun _ => hStart)
    hRun hInTime
  · exact fun past s a s' h _ hInTime => heeded_env (h (inTime_cons hInTime)) a
  · exact fun o past s r s' hOk _ hExec hInTime => heeded_did hOk hInTime hExec

section Instance

def master : TcpServer where
  ownDeviceId := 2
  ownStatic := plainKeypair 2
  audioPort := 5000

/-- A Master that knows device 7. -/
def console : Console :=
  ⟨World.fresh ⟨fun d => if d = 7 then some (plainKeypair 1).publicKey else none,
    fun d => if d = 7 then some (plainKeypair 1).publicKey else none⟩ [], {}⟩

/-- What device 7 sends in a handshake without pairing. -/
def handshakeStream : List UInt8 :=
  (encodeDeviceId 7).val ++ (0 ::
    ((ikWriteMsg1 plainSodium (plainKeypair 1) (plainKeypair 2).publicKey (plainKeypair 3)).map
      (·.1)).getD [])

/-- Device 9 presents its key, and leaves. -/
def pairingStream : List UInt8 :=
  (encodeDeviceId 9).val ++ (1 :: (plainKeypair 5).publicKey.val)

def usual (n : Nat) : List (Cue UiAction Choice) :=
  List.replicate n (.answer .usual)

/-- From the start of a round until the client at `ip` has been served `n`
operations. -/
def acceptCues (ip : String) (stream : List UInt8) (n : Nat) : List (Cue UiAction Choice) :=
  usual 2 ++ .answer (.client ip stream) :: usual n

/-- Until device 7 is published as connected. -/
def connectCues : List (Cue UiAction Choice) :=
  .enter :: acceptCues "192.168.0.3" handshakeStream 10 ++ .answer (.keypair (plainKeypair 4)) :: usual 5

/-- From there to the first look at the disconnect flag, with an order before
the flag is reset. -/
def beforeResetCues : List (Cue UiAction Choice) :=
  connectCues ++ [.env .look, .env .disconnect] ++ usual 6 ++ .enter :: usual 2

/-- The user accepts device 9, which then misses Noise IK. -/
def pairCues : List (Cue UiAction Choice) :=
  .enter :: acceptCues "192.168.0.4" pairingStream 12 ++
    [.env .look, .env (.accept (computeFingerprint plainSodium (plainKeypair 5).publicKey (plainKeypair 2).publicKey))] ++
    usual 1 ++ .enter :: usual 5 ++ usual 2 ++ .answer .fails :: usual 2

/-- Afterwards device 7 connects, and the user ends its connection. -/
def heededCues : List (Cue UiAction Choice) :=
  pairCues ++ connectCues ++ usual 3 ++ [.env .look, .env .disconnect] ++ usual 3 ++ .enter :: usual 8

/-- The last event is a look at the disconnect flag, after an order to end the
connection. -/
def looksAfterOrder (requested : Bool) : List UiLabel → Bool
  | .did .loadDisconnect r :: past => r == requested && (ordered past).isSome
  | _ => false

def storesNine : UiLabel → Bool
  | .did (.remember d _) _ => d == 9
  | _ => false

/-- The last event resets the status after an order to end the connection, and
device 9 was paired. -/
def endsAsAsked : List UiLabel → Bool
  | .did (.assignStatus info) _ :: past =>
      decide (info.state = .idle) && (ordered past).isSome && past.any storesNine
  | _ => false

/-- Device 9 is paired after the user has accepted it, and an order to
disconnect device 7 ends its connection. -/
theorem run_heeds_disconnect : ∃ past p s, Run consoleSystem (run plainSodium master) console past p s ∧
    endsAsAsked past = true ∧ Heeded past := by
  obtain ⟨past, p, s, hRun, hCheck⟩ := consolePlayer.exists_run (run plainSodium master) console
    heededCues (fun c => endsAsAsked c.past && decide (InTime c.past)) (by decide +kernel)
  obtain ⟨hEnds, hInTime⟩ := (Bool.and_eq_true _ _).mp hCheck
  exact ⟨past, p, s, hRun, hEnds, run_heeds hRun (of_decide_eq_true hInTime)⟩

/-- An order that comes between the publication and the reset is lost. -/
theorem run_loses_disconnect : ∃ past p s,
    Run consoleSystem (run plainSodium master) console past p s ∧ ¬ Heeded past := by
  obtain ⟨past, p, s, hRun, hLooks⟩ := consolePlayer.exists_run (run plainSodium master) console
    beforeResetCues (fun c => looksAfterOrder false c.past) (by decide +kernel)
  refine ⟨past, p, s, hRun, fun hHeeded => ?_⟩
  cases past with
  | nil => cases hLooks
  | cons l past =>
      cases l with
      | env a => cases hLooks
      | did o r =>
          cases o with
          | loadDisconnect =>
              obtain ⟨hRead, hOrdered⟩ := (Bool.and_eq_true _ _).mp hLooks
              cases (beq_iff_eq.mp hRead).symm.trans (hHeeded.disconnect_read r past rfl hOrdered)
          | _ => cases hLooks

end Instance

end NoCapKVM.Discovery.CommandTiming
