import NoCapKVM.App.RemoteInput
import NoCapKVM.Discovery.MonitorList

/-! From the monitors of the Slave to those that the Master knows of: the Slave's session, the
secure channel and the Master's message loop together. -/
namespace NoCapKVM.App.PeerMonitors

open Thread Discovery
open Discovery.SecureChannel Discovery.ChannelDelivery
open Discovery.SessionLoop (Endpoint sessionSystem InStep)

def look? : ConnLabel → Option (List MonitorInfo)
  | .did .getLocalMonitors monitors => some monitors
  | _ => none

/-- What the Slave has found its monitors to be so far, in order. -/
def looks (past : List ConnLabel) : List (List MonitorInfo) :=
  past.reverse.filterMap look?

def report? : ConnLabel → Option (List UInt8)
  | .did (.channelSend msgType payload) _ => if msgType = kMsgMonitorList then some payload else none
  | _ => none

/-- The monitor lists handed to the channel so far, in order. -/
def reports (past : List ConnLabel) : List (List UInt8) :=
  past.reverse.filterMap report?

/-- Only a look at the monitors adds to what the Slave has seen. -/
theorem looks_cons (l : ConnLabel) (past : List ConnLabel) : looks (l :: past) = looks past ++ (look? l).toList := by
  simp only [looks, List.reverse_cons, List.filterMap_append, List.filterMap_cons, List.filterMap_nil]
  cases look? l <;> rfl

/-- Only a report adds to what was handed to the channel. -/
theorem reports_cons (l : ConnLabel) (past : List ConnLabel) : reports (l :: past) = reports past ++ (report? l).toList := by
  simp only [reports, List.reverse_cons, List.filterMap_append, List.filterMap_cons, List.filterMap_nil]
  cases report? l <;> rfl

/-- What was reported had been seen, in the same order. -/
def Faithful (past : List ConnLabel) (lists : List (List MonitorInfo)) : Prop :=
  reports past = lists.map encodeMonitorList ∧ lists.Sublist (looks past)

/-- `monitors` was the last to be seen and the last to be reported. -/
def Told (monitors : List MonitorInfo) (past : List ConnLabel) (_ : World) : Prop :=
  (looks past).getLast? = some monitors ∧ ∃ lists, Faithful past lists ∧ lists.getLast? = some monitors

/-- The monitors have been seen, and are about to be reported. -/
def Seen (monitors : List MonitorInfo) (past : List ConnLabel) (_ : World) : Prop :=
  ∃ lists older, Faithful past lists ∧ looks past = older ++ [monitors] ∧ lists.Sublist older

/-- What neither looks nor reports. -/
theorem quiet_cons {l : ConnLabel} (hLook : look? l = none) (hReport : report? l = none) (past : List ConnLabel) :
    looks (l :: past) = looks past ∧ reports (l :: past) = reports past := by
  rw [looks_cons, reports_cons, hLook, hReport]
  exact ⟨List.append_nil _, List.append_nil _⟩

/-- Events without looks and reports leave the account as it is. -/
theorem faithful_quiet {l : ConnLabel} (hLook : look? l = none) (hReport : report? l = none) {past : List ConnLabel}
    {lists : List (List MonitorInfo)} (h : Faithful past lists) : Faithful (l :: past) lists := by
  obtain ⟨hLooks, hReports⟩ := quiet_cons hLook hReport past
  unfold Faithful
  rw [hLooks, hReports]
  exact h

theorem told_quiet {l : ConnLabel} (hLook : look? l = none) (hReport : report? l = none) {monitors : List MonitorInfo}
    {past : List ConnLabel} {w : World} (h : Told monitors past w) (w' : World) : Told monitors (l :: past) w' := by
  obtain ⟨hLast, lists, hFaithful, hNewest⟩ := h
  exact ⟨(quiet_cons hLook hReport past).1 ▸ hLast, lists, faithful_quiet hLook hReport hFaithful, hNewest⟩

theorem seen_quiet {l : ConnLabel} (hLook : look? l = none) (hReport : report? l = none) {monitors : List MonitorInfo}
    {past : List ConnLabel} {w : World} (h : Seen monitors past w) (w' : World) : Seen monitors (l :: past) w' := by
  obtain ⟨lists, older, hFaithful, hLooks, hOlder⟩ := h
  exact ⟨lists, older, faithful_quiet hLook hReport hFaithful, (quiet_cons hLook hReport past).1.trans hLooks, hOlder⟩

variable {allowed : Action → Prop}

/-- The other threads neither look at the monitors of this thread nor
report them. -/
theorem told_stable (monitors : List MonitorInfo) : Stable (connSystem allowed) (Told monitors) :=
  fun _ _ _ w' h _ => told_quiet rfl rfl h w'

theorem seen_stable (monitors : List MonitorInfo) : Stable (connSystem allowed) (Seen monitors) :=
  fun _ _ _ w' h _ => seen_quiet rfl rfl h w'

/-- Neither a look at the monitors nor a report of them. -/
def IsAside : Op → Prop
  | .channelSend msgType _ => msgType ≠ kMsgMonitorList
  | .getLocalMonitors => False
  | _ => True

/-- Operations of other kinds are no looks and no reports. -/
theorem aside_quiet {o : Op} (hO : IsAside o) (r : Ans o) :
    look? (.did o r) = none ∧ report? (.did o r) = none := by
  cases o with
  | channelSend msgType payload => exact ⟨rfl, if_neg hO⟩
  | getLocalMonitors => exact hO.elim
  | _ => exact ⟨rfl, rfl⟩

theorem told_aside {o : Op} (hO : IsAside o) {monitors : List MonitorInfo} {past : List ConnLabel} {w w' : World}
    (h : Told monitors past w) (r : Ans o) : Told monitors (.did o r :: past) w' := by
  obtain ⟨hLook, hReport⟩ := aside_quiet hO r
  exact told_quiet hLook hReport h w'

/-- Where the session waits, what it saw last is what it reported last. -/
def mirrors : Op → Assertion Op Ans Action World
  | .channelReceive _ => fun past w => ∃ monitors, Told monitors past w
  | _ => fun _ _ => True

/-- Once the list seen last is the one reported last, the session may wait
anywhere. -/
theorem mirrors_of_told {monitors : List MonitorInfo} {past : List ConnLabel} {w : World} (h : Told monitors past w)
    (o : Op) : mirrors o past w := by
  cases o with
  | channelReceive deadline => exact ⟨monitors, h⟩
  | _ => trivial

variable {monitors : List MonitorInfo} {past : List ConnLabel} {w : World} {α : Type}

/-- Between two checks the list seen last stays the one reported last. -/
theorem aside_safe {p : ConnProg α} (hP : p.Uses IsAside) (h : Told monitors past w) :
    Safe (connSystem allowed) mirrors p (fun _ => Told monitors) past w := by
  apply Safe.frame (Told monitors) (told_stable monitors) (fun o _ _ _ h => mirrors_of_told h o) _ hP h
  intro o past w r w' hO h _
  exact told_aside hO h r

theorem aside_op {o : Op} {next : Ans o → ConnProg α} {Q : α → Assertion Op Ans Action World} (hO : IsAside o)
    (h : Told monitors past w)
    (hNext : ∀ r past w, Told monitors past w → Safe (connSystem allowed) mirrors (next r) Q past w) :
    Safe (connSystem allowed) mirrors (.op o next) Q past w := by
  apply Safe.op (Told monitors) (told_stable monitors) h (fun _ _ h => mirrors_of_told h o)
  intro past w r w' h _
  exact hNext r _ w' (told_aside hO h r)

section Uses

/-- Answering a ping is no look at the monitors and no report of them. -/
theorem answerPing_aside (payload : List UInt8) : (answerPing payload).Uses IsAside := by
  unfold answerPing
  cases decodePingSeq payload with
  | none => trivial
  | some seq => exact ⟨(by decide : kMsgPong ≠ kMsgMonitorList), fun _ => trivial⟩

theorem keepAlive_aside (link : Link) (now : Time) : (keepAlive link now).Uses IsAside := by
  have hHeartbeat : (sendHeartbeat link now).Uses IsAside := by
    unfold sendHeartbeat
    split
    · exact ⟨(by decide : kMsgHeartbeat ≠ kMsgMonitorList), fun _ => trivial⟩
    · trivial
  refine hHeartbeat.bind fun link => ?_
  unfold sendProbe
  split
  · exact ⟨(by decide : kMsgPing ≠ kMsgMonitorList), fun _ => trivial⟩
  · trivial

/-- Nor is dealing with any other message of the Master. -/
theorem dispatch_aside (link : Link) (msgType : UInt8) (payload : List UInt8) :
    (TcpClient.dispatch link msgType payload).Uses IsAside := by
  unfold TcpClient.dispatch
  split
  · cases decodeAudioPort payload <;> simp [IsAside]
  split
  · cases decodeAudioSettings payload <;> simp [IsAside]
  split
  · simp [IsAside]
  split
  · exact (answerPing_aside payload).bind fun _ => trivial
  split
  · exact receivePong_uses trivial (fun _ => trivial) link payload
  split
  · simp [receiveClipboard, IsAside]
  split
  · cases Input.dispatchInputMessage msgType payload <;> simp [IsAside]
  · exact trivial

end Uses

/-- A look adds its list to what was seen, and the list is then due to be
reported. -/
theorem seen_look {lists : List (List MonitorInfo)} (h : Faithful past lists) (monitors : List MonitorInfo) (w' : World) :
    Seen monitors (.did .getLocalMonitors monitors :: past) w' := by
  have hLooks : looks (.did .getLocalMonitors monitors :: past) = looks past ++ [monitors] := looks_cons _ past
  refine ⟨lists, looks past, ⟨?_, ?_⟩, hLooks, h.2⟩
  · rw [reports_cons]
    exact (List.append_nil _).trans h.1
  · rw [hLooks]
    exact h.2.trans (List.sublist_append_left _ _)

/-- A look that finds nothing new. -/
theorem told_same (h : Told monitors past w) (w' : World) :
    Told monitors (.did .getLocalMonitors monitors :: past) w' := by
  obtain ⟨-, lists, hFaithful, hNewest⟩ := h
  refine ⟨?_, lists, ⟨?_, ?_⟩, hNewest⟩
  · rw [looks_cons]
    exact List.getLast?_concat
  · rw [reports_cons]
    exact (List.append_nil _).trans hFaithful.1
  · rw [looks_cons]
    exact hFaithful.2.trans (List.sublist_append_left _ _)

/-- A report of the list that was seen last settles it, whether the channel
takes it or not. -/
theorem told_sent (h : Seen monitors past w) (sent : Bool) (w' : World) :
    Told monitors (.did (.channelSend kMsgMonitorList (encodeMonitorList monitors)) sent :: past) w' := by
  obtain ⟨lists, older, ⟨hReports, -⟩, hLooks, hOlder⟩ := h
  have hSame : looks (.did (.channelSend kMsgMonitorList (encodeMonitorList monitors)) sent :: past) = older ++ [monitors] := by
    rw [looks_cons]
    exact (List.append_nil _).trans hLooks
  refine ⟨?_, lists ++ [monitors], ⟨?_, ?_⟩, List.getLast?_concat⟩
  · rw [hSame]
    exact List.getLast?_concat
  · rw [reports_cons, hReports, List.map_append]
    rfl
  · rw [hSame]
    exact hOlder.append_right [monitors]

/-- So the report is a safe operation where its list was just seen. -/
theorem report_op {next : Bool → ConnProg α} {Q : α → Assertion Op Ans Action World} (h : Seen monitors past w)
    (hNext : ∀ sent past w, Told monitors past w → Safe (connSystem allowed) mirrors (next sent) Q past w) :
    Safe (connSystem allowed) mirrors (.op (.channelSend kMsgMonitorList (encodeMonitorList monitors)) next) Q past w := by
  apply Safe.op (Seen monitors) (seen_stable monitors) h (fun _ _ _ => trivial)
  intro past w sent w' h _
  exact hNext sent _ w' (told_sent h sent w')

/-- The loop state between two rounds. -/
abbrev AtRound : TcpClient.Session → Assertion Op Ans Action World :=
  fun x => Told x.lastSentMonitors

/-- A check either finds the list as it was, or reports the new
one at once. -/
theorem checkMonitors_safe (x : TcpClient.Session) (now : Time) (h : AtRound x past w) :
    Safe (connSystem allowed) mirrors (TcpClient.checkMonitors x now) AtRound past w := by
  unfold TcpClient.checkMonitors
  split
  · apply Safe.op (AtRound x) (told_stable _) h (fun _ _ _ => trivial)
    intro past w monitors w' h _
    simp only [Prog.ret_bind]
    split
    · obtain ⟨-, lists, hFaithful, -⟩ := h
      refine report_op (seen_look hFaithful monitors w') fun _ past w h => ?_
      exact .ret_of (Told monitors) (by rfl) (told_stable monitors) h
    · rename_i hSame
      rw [not_not] at hSame
      subst hSame
      exact .ret_of (Told x.lastSentMonitors) (by rfl) (told_stable _) (told_same h w')
  · exact .ret_of (Told x.lastSentMonitors) (by rfl) (told_stable _) h

/-- After a round. -/
abbrev AfterRound : TcpClient.Session ⊕ Unit → Assertion Op Ans Action World :=
  Sum.elim AtRound fun _ _ _ => True

theorem ended_safe : Safe (connSystem allowed) mirrors (.ret (.inr ())) AfterRound past w :=
  .ret (fun _ _ _ _ _ _ => trivial) trivial

/-- The rest of a round changes nothing about the monitors
besides its check. -/
theorem rest_safe (c : TcpClient) (x : TcpClient.Session) (link : Link) (h : AtRound x past w) :
    Safe (connSystem allowed) mirrors (TcpClient.sessionRound.rest c x link) AfterRound past w := by
  unfold TcpClient.sessionRound.rest
  refine aside_op trivial h fun now past w h => ?_
  simp only [Prog.ret_bind]
  split
  · exact ended_safe
  · refine Safe.bind ((aside_safe (keepAlive_aside link now) h).mono fun link past w h => ?_)
    refine Safe.bind ((checkMonitors_safe { x with link := link } now h).mono fun x past w h => ?_)
    exact .ret_of (AtRound x) (by rfl) (told_stable _) h

/-- A round begins and ends with the list seen last being the one
reported last. -/
theorem sessionRound_safe (c : TcpClient) (x : TcpClient.Session) (h : AtRound x past w) :
    Safe (connSystem allowed) mirrors (TcpClient.sessionRound c x) AfterRound past w := by
  refine aside_op trivial h fun running past w h => ?_
  cases running with
  | false => exact ended_safe
  | true =>
      refine aside_op trivial h fun start past w h => ?_
      simp only [Prog.ret_bind]
      refine aside_op trivial h fun r past w h => ?_
      cases r with
      | closed => exact ended_safe
      | timeout => exact rest_safe c x _ h
      | error => exact aside_op trivial h fun now past w h => rest_safe c x _ h
      | ok msgType payload =>
          refine aside_op trivial h fun now past w h => ?_
          simp only [Prog.bind_def, Prog.ret_bind]
          refine Safe.bind ((aside_safe (dispatch_aside _ msgType payload) h).mono fun link past w h => ?_)
          exact rest_safe c x link h

/-- So in every run of the loop, wherever it waits, the Slave has reported
what it saw last. -/
theorem loop_safe (c : TcpClient) (x : TcpClient.Session) (h : AtRound x past w) :
    Safe (connSystem allowed) mirrors (Prog.iterate x (TcpClient.sessionRound c)) (fun _ _ _ => True) past w := by
  apply Safe.iterate AtRound (fun x => told_stable x.lastSentMonitors) (fun _ _ _ _ _ _ _ => trivial) h
  intro x past w h
  exact (sessionRound_safe c x h).mono fun r past w h => by cases r <;> exact h

/-- Nothing has been reported. -/
def Silent (past : List ConnLabel) (_ : World) : Prop :=
  Faithful past []

theorem silent_stable : Stable (connSystem allowed) Silent :=
  fun _ _ _ _ h _ => faithful_quiet rfl rfl h

/-- A session reports the first list before its loop begins, and every later
one from there. -/
theorem session_safe (c : TcpClient) (d : UInt64) (ik : IkResult UInt8) (w : World) :
    Safe (connSystem allowed) mirrors (TcpClient.session c d ik) (fun _ _ _ => True) [] w := by
  have hSilent : Silent [] w := ⟨rfl, List.nil_sublist _⟩
  refine .op Silent silent_stable hSilent (fun _ _ _ => trivial) fun past w _ w' h _ => ?_
  refine .op Silent silent_stable (faithful_quiet rfl rfl h) (fun _ _ _ => trivial) fun past w _ w' h _ => ?_
  refine .op Silent silent_stable (faithful_quiet rfl rfl h) (fun _ _ _ => trivial) fun past w _ w' h _ => ?_
  refine .op Silent silent_stable (faithful_quiet rfl rfl h) (fun _ _ _ => trivial) fun past w monitors w' h _ => ?_
  refine report_op (seen_look h monitors w') fun _ past w h => ?_
  refine aside_op trivial h fun lastHeard past w h => ?_
  refine aside_op trivial h fun lastHeartbeatSent past w h => ?_
  refine aside_op trivial h fun lastMonitorCheck past w h => ?_
  refine aside_op trivial h fun lastPingSent past w h => ?_
  simp only [Prog.bind_def, Prog.ret_bind]
  refine Safe.bind ((loop_safe c _ h).mono fun _ past w _ => ?_)
  refine Safe.op_any (fun _ _ => trivial) (fun _ => ?_) past w
  refine Safe.op_any (fun _ _ => trivial) fun _ => ?_
  refine Safe.op_any (fun _ _ => trivial) fun _ past w => ?_
  exact .ret (fun _ _ _ _ _ _ => trivial) trivial

def heardMonitors? (m : Message) : Option (List MonitorInfo) :=
  if m.msgType = kMsgMonitorList then decodeMonitorList m.payload else none

/-- What the messages make of the list that is shown. -/
def heard (shown : List MonitorInfo) (msgs : List Message) : List MonitorInfo :=
  msgs.foldl (fun shown m => (heardMonitors? m).getD shown) shown

/-- The last message decides what is shown, if it is a list that can be
decoded. -/
theorem heard_concat (shown : List MonitorInfo) (msgs : List Message) (m : Message) :
    heard shown (msgs ++ [m]) = (heardMonitors? m).getD (heard shown msgs) := by
  rw [heard, List.foldl_append]
  rfl

variable {na : Sodium UInt8} {key : Key32 UInt8} {pieces : List Piece} {start : List MonitorInfo} {e : Endpoint}

/-- The channel is read in step, and the messages but for `due` have been
dealt with. -/
def Showing (na : Sodium UInt8) (key : Key32 UInt8) (pieces : List Piece) (start : List MonitorInfo)
    (due : List Message) (past : List ConnLabel) (e : Endpoint) : Prop :=
  InStep na key pieces past e ∧ ∃ dealt, SessionLoop.delivered past = dealt ++ due ∧
    e.world.status.peerMonitors = heard start dealt

def LeavesList (o : Op) : Prop := ∀ monitors, o ≠ .updateStatus (.peerMonitors monitors)

/-- Neither a receive nor a change of the list. -/
def IsReply (o : Op) : Prop := IsAnswer o ∧ LeavesList o

/-- What was delivered grows by one message with each receive that
returns one. -/
theorem delivered_cons (l : ConnLabel) (past : List ConnLabel) : SessionLoop.delivered (l :: past) =
    SessionLoop.delivered past ++ ((SessionLoop.result? l).bind SessionLoop.message?).toList := by
  unfold SessionLoop.delivered
  rw [SessionLoop.results_cons, List.filterMap_append]
  cases SessionLoop.result? l with
  | none => rfl
  | some r => cases h : SessionLoop.message? r <;> simp [h]

/-- Something happens that is no message and leaves the list alone. -/
theorem showing_aside {due : List Message} {past : List ConnLabel} {e' : Endpoint} {l : ConnLabel}
    (h : Showing na key pieces start due past e) (hStep : InStep na key pieces (l :: past) e')
    (hResult : SessionLoop.result? l = none)
    (hShown : e'.world.status.peerMonitors = e.world.status.peerMonitors) :
    Showing na key pieces start due (l :: past) e' := by
  obtain ⟨-, dealt, hDelivered, hHeard⟩ := h
  refine ⟨hStep, dealt, ?_, hShown.trans hHeard⟩
  rw [delivered_cons, hResult]
  exact (List.append_nil _).trans hDelivered

/-- The other threads neither read the channel nor change the list. -/
theorem showing_stable (due : List Message) :
    Stable (sessionSystem na key timely) (Showing na key pieces start due) := by
  intro past e a e' h hEnv
  refine showing_aside h (SessionLoop.inStep_stable past e a e' h.1 hEnv) rfl ?_
  obtain rfl := hEnv
  exact congrArg ConnectionInfo.peerMonitors (act_status a e.world)

/-- An operation of an answer reads nothing from the channel. -/
theorem exec_of_answer {o : Op} (hO : IsAnswer o) {e e' : Endpoint} {r : Ans o}
    (hExec : (sessionSystem na key timely).exec o e r e') :
    World.exec o e.world r e'.world ∧ SessionLoop.result? (.did o r) = none := by
  cases o with
  | channelReceive deadline => exact hO.elim
  | _ => exact ⟨hExec.1, rfl⟩

/-- Nor does it change the list that is shown. -/
theorem showing_reply {o : Op} (hO : IsReply o) {due : List Message} {past : List ConnLabel} {r : Ans o} {e' : Endpoint}
    (h : Showing na key pieces start due past e) (hExec : (sessionSystem na key timely).exec o e r e') :
    Showing na key pieces start due (.did o r :: past) e' := by
  obtain ⟨hWorld, hResult⟩ := exec_of_answer hO.1 hExec
  refine showing_aside h (SessionLoop.inStep_answer hO.1 h.1 hExec) hResult ?_
  by_cases hUpdate : ∃ u, o = .updateStatus u
  · obtain ⟨u, rfl⟩ := hUpdate
    rw [show e'.world = { e.world with status := u.apply e.world.status } from hWorld]
    cases u with
    | peerMonitors monitors => exact absurd rfl (hO.2 monitors)
    | _ => rfl
  · have hAssign : ∀ info, o ≠ .assignStatus info := by
      rintro info rfl
      exact hO.1.elim
    exact congrArg ConnectionInfo.peerMonitors (exec_status hWorld hAssign fun u hEq => hUpdate ⟨u, hEq⟩)

/-- Where the loop waits, every message has been dealt with. -/
def caughtUp (na : Sodium UInt8) (key : Key32 UInt8) (pieces : List Piece) (start : List MonitorInfo) :
    Op → Assertion Op Ans Action Endpoint
  | .channelReceive _ => Showing na key pieces start []
  | _ => fun _ _ => True

/-- The condition is about the receives only, where the loop waits. -/
theorem caughtUp_of_reply {o : Op} (hO : IsReply o) (past : List ConnLabel) (e : Endpoint) :
    caughtUp na key pieces start o past e := by
  cases o with
  | channelReceive deadline => exact hO.1.elim
  | _ => trivial

variable {due : List Message}

theorem showing_op {o : Op} {next : Ans o → ConnProg α} {Q : α → Assertion Op Ans Action Endpoint} (hO : IsReply o)
    (h : Showing na key pieces start due past e)
    (hNext : ∀ r past e, Showing na key pieces start due past e →
      Safe (sessionSystem na key timely) (caughtUp na key pieces start) (next r) Q past e) :
    Safe (sessionSystem na key timely) (caughtUp na key pieces start) (.op o next) Q past e := by
  apply Safe.op (Showing na key pieces start due) (showing_stable due) h (fun past e _ => caughtUp_of_reply hO past e)
  intro past e r e' h hExec
  exact hNext r _ e' (showing_reply hO h hExec)

/-- A program of such operations leaves everything that is due as it was. -/
theorem replies_safe {p : ConnProg α} (hP : p.Uses IsReply) (h : Showing na key pieces start due past e) :
    Safe (sessionSystem na key timely) (caughtUp na key pieces start) p (fun _ => Showing na key pieces start due)
      past e := by
  apply Safe.frame (Showing na key pieces start due) (showing_stable due)
    (fun o past e hO _ => caughtUp_of_reply hO past e) _ hP h
  intro o past e r e' hO h hExec
  exact showing_reply hO h hExec

/-- A message that does not change the list has been dealt with. -/
theorem showing_other {m : Message} (hM : heardMonitors? m = none) (h : Showing na key pieces start [m] past e) :
    Showing na key pieces start [] past e := by
  obtain ⟨hStep, dealt, hDelivered, hShown⟩ := h
  refine ⟨hStep, dealt ++ [m], ?_, ?_⟩
  · rw [hDelivered, List.append_nil]
  · rw [heard_concat, hM]
    exact hShown

/-- Only a monitor list is dealt with by a change of the list. -/
theorem dispatch_leaves (link : Link) {msgType : UInt8} (hType : msgType ≠ kMsgMonitorList) (payload : List UInt8) :
    (TcpServer.dispatch link msgType payload).Uses LeavesList := by
  unfold TcpServer.dispatch
  rw [if_neg hType]
  split
  · cases decodeAudioSettings payload with
    | none => trivial
    | some settings => exact ⟨nofun, fun _ => trivial⟩
  split
  · exact (answerPing_uses (fun _ _ => nofun) payload).bind fun _ => trivial
  split
  · exact receivePong_uses nofun (fun _ => nofun) link payload
  split
  · exact ⟨nofun, fun _ => trivial⟩
  · trivial

/-- Dispatching a message deals with it. -/
theorem dispatch_showing (link : Link) (msgType : UInt8) (payload : List UInt8)
    (h : Showing na key pieces start [⟨msgType, payload⟩] past e) :
    Safe (sessionSystem na key timely) (caughtUp na key pieces start) (TcpServer.dispatch link msgType payload)
      (fun _ => Showing na key pieces start []) past e := by
  by_cases hType : msgType = kMsgMonitorList
  · subst hType
    cases hDecode : decodeMonitorList payload with
    | none =>
        have hHeard : heardMonitors? ⟨kMsgMonitorList, payload⟩ = none := hDecode
        rw [dispatch_rejected hDecode]
        exact Safe.ret (Q := fun _ => Showing na key pieces start []) (showing_stable []) (showing_other hHeard h)
    | some monitors =>
        have hHeard : heardMonitors? ⟨kMsgMonitorList, payload⟩ = some monitors := hDecode
        simp only [TcpServer.dispatch, if_true, hDecode]
        refine .op (Showing na key pieces start [⟨kMsgMonitorList, payload⟩]) (showing_stable _) h
          (fun _ _ _ => trivial) fun past e r e' h hExec => ?_
        refine Safe.ret (Q := fun _ => Showing na key pieces start []) (showing_stable []) ?_
        obtain ⟨hStep, dealt, hDelivered, -⟩ := h
        refine ⟨SessionLoop.inStep_answer trivial hStep hExec, dealt ++ [⟨kMsgMonitorList, payload⟩], ?_, ?_⟩
        · rw [delivered_cons, hDelivered]
          rfl
        · rw [heard_concat, hHeard]
          exact congrArg (fun w => w.status.peerMonitors) hExec.1
  · have hHeard : heardMonitors? ⟨msgType, payload⟩ = none := if_neg hType
    exact replies_safe ((TcpServer.dispatch_uses link msgType payload).and (dispatch_leaves link hType payload))
      (showing_other hHeard h)

/-- A receive that does not end the loop leaves its message to
be dealt with. -/
theorem showing_receive (hNa : na.AeadContract) {deadline : Time} {r : RecvResult} {e' : Endpoint}
    (h : Showing na key pieces start [] past e)
    (hExec : (sessionSystem na key timely).exec (.channelReceive deadline) e r e') :
    r = .closed ∨ Showing na key pieces start (SessionLoop.message? r).toList (.did (.channelReceive deadline) r :: past) e' := by
  obtain ⟨hStep, dealt, hDelivered, hShown⟩ := h
  rcases SessionLoop.inStep_receive hNa hStep hExec with hClosed | hStep
  · exact .inl hClosed
  · refine .inr ⟨hStep, dealt, ?_, ?_⟩
    · rw [delivered_cons, hDelivered, List.append_nil]
      cases r <;> rfl
    · obtain ⟨-, hWorld⟩ := hExec
      rw [hWorld]
      exact hShown

/-- After a round the loop has caught up, or is over. -/
abbrev AfterServerRound (na : Sodium UInt8) (key : Key32 UInt8) (pieces : List Piece) (start : List MonitorInfo) :
    Link ⊕ Unit → Assertion Op Ans Action Endpoint :=
  Sum.elim (fun _ => Showing na key pieces start []) fun _ _ _ => True

theorem serverEnded_safe : Safe (sessionSystem na key timely) (caughtUp na key pieces start) (.ret (.inr ()))
    (AfterServerRound na key pieces start) past e :=
  .ret (fun _ _ _ _ _ _ => trivial) trivial

/-- After a round without a message the Master has caught up as before. -/
theorem serverRest_safe (link : Link) (h : Showing na key pieces start [] past e) :
    Safe (sessionSystem na key timely) (caughtUp na key pieces start) (TcpServer.sessionRound.rest link)
      (AfterServerRound na key pieces start) past e := by
  have hOther : (TcpServer.sessionRound.rest link).Uses LeavesList := by
    refine ⟨nofun, fun now => ⟨nofun, fun heartbeatTimeout => ?_⟩⟩
    simp only [Prog.ret_bind]
    split
    · exact trivial
    · exact (keepAlive_uses (fun _ _ => nofun) link now).bind fun _ => trivial
  refine (replies_safe ((TcpServer.rest_uses link).and hOther) h).mono fun r past e h => ?_
  cases r with
  | inl link => exact h
  | inr _ => trivial

/-- A round deals with the message that it receives before the next one is
waited for. -/
theorem serverRound_safe (hNa : na.AeadContract) (link : Link) (h : Showing na key pieces start [] past e) :
    Safe (sessionSystem na key timely) (caughtUp na key pieces start) (TcpServer.sessionRound link)
      (AfterServerRound na key pieces start) past e := by
  refine showing_op ⟨trivial, nofun⟩ h fun running past e h => ?_
  cases running with
  | false => exact serverEnded_safe
  | true =>
      refine showing_op ⟨trivial, nofun⟩ h fun requested past e h => ?_
      cases requested with
      | true => exact serverEnded_safe
      | false =>
          refine showing_op ⟨trivial, nofun⟩ h fun start past e h => ?_
          simp only [Prog.ret_bind]
          apply Safe.op (Showing na key pieces _ []) (showing_stable []) h (fun _ _ h => h)
          intro past e r e' h hExec
          rcases showing_receive hNa h hExec with rfl | h
          · exact serverEnded_safe
          cases r with
          | closed => exact serverEnded_safe
          | timeout => exact serverRest_safe _ h
          | error => exact showing_op ⟨trivial, nofun⟩ h fun now past e h => serverRest_safe _ h
          | ok msgType payload =>
              refine showing_op ⟨trivial, nofun⟩ h fun now past e h => ?_
              simp only [Prog.bind_def, Prog.ret_bind]
              refine Safe.bind ((dispatch_showing _ msgType payload h).mono fun link past e h => ?_)
              exact serverRest_safe link h

/-- In every run of the loop, wherever it waits, all messages received so far
have been dealt with. -/
theorem serverLoop_safe (hNa : na.AeadContract) (link : Link) (h : Showing na key pieces start [] past e) :
    Safe (sessionSystem na key timely) (caughtUp na key pieces start) (Prog.iterate link TcpServer.sessionRound)
      (fun _ _ _ => True) past e := by
  apply Safe.iterate (fun _ => Showing na key pieces start []) (fun _ => showing_stable [])
    (fun _ _ _ _ _ _ _ => trivial) h
  intro link past e h
  exact (serverRound_safe hNa link h).mono fun r past e h => by cases r <;> exact h

/-- What a list becomes on its way. -/
def clipped (monitors : List MonitorInfo) : List MonitorInfo :=
  (monitors.take kMaxMonitors).map fun m => { m with name := m.name.take kMaxNameLen }

def isReport (m : Message) : Bool :=
  m.msgType == kMsgMonitorList

/-- Where the reports of the Slave arrive, the last of them is shown, cut as
it is on its way. -/
theorem heard_reports {msgs : List Message} {lists : List (List MonitorInfo)}
    (h : (msgs.filter isReport).map Message.payload = lists.map encodeMonitorList) (shown : List MonitorInfo) :
    heard shown msgs = (lists.getLast?.map clipped).getD shown := by
  induction msgs generalizing lists shown with
  | nil =>
      obtain rfl : lists = [] := List.map_eq_nil_iff.mp h.symm
      rfl
  | cons m msgs ih =>
      by_cases hReport : isReport m = true
      · rw [List.filter_cons_of_pos hReport, List.map_cons] at h
        obtain ⟨l, lists, rfl, hPayload, hRest⟩ := List.map_eq_cons_iff.mp h.symm
        have hHeard : heardMonitors? m = some (clipped l) := by
          have hDecode := decodeMonitorList_encodeMonitorList l []
          rw [List.append_nil, hPayload] at hDecode
          rw [heardMonitors?, if_pos (beq_iff_eq.mp hReport)]
          exact hDecode
        change heard ((heardMonitors? m).getD shown) msgs = _
        rw [ih hRest.symm, hHeard]
        cases lists with
        | nil => rfl
        | cons l' lists =>
            rw [List.getLast?_cons_cons, List.getLast?_cons]
            rfl
      · have hHeard : heardMonitors? m = none := if_neg fun hType => hReport (beq_iff_eq.mpr hType)
        rw [List.filter_cons_of_neg hReport] at h
        change heard ((heardMonitors? m).getD shown) msgs = _
        rw [hHeard]
        exact ih h shown

/-- The list of monitors that the Master shows is one that the Slave had,
later ones replacing earlier ones and none of them made up. It is the one that
the Slave has found last once everything is read. -/
theorem monitors_follow (hNa : na.AeadContract) (c : TcpClient) (d : UInt64) (ik : IkResult UInt8) (link : Link)
    {deadline deadline' : Time} {init w : World} {told past : List ConnLabel}
    {next : RecvResult → ConnProg AttemptOutcome} {next' : RecvResult → ConnProg Unit}
    {msgs : List Message} {sender sent : Socket} {e e' : Endpoint}
    (slave : Run (connSystem allowed) (TcpClient.session c d ik) init told (.op (.channelReceive deadline) next) w)
    (hReports : (msgs.filter isReport).map Message.payload = reports told)
    (hShort : ∀ m ∈ msgs, m.payload.length ≤ kMaxFrameLen.toNat - 17) (hSent : Sends na key sender msgs sent)
    (hNonce : e.socket.recvNonce = sender.sendNonce) (hWire : sent.outgoing = sender.outgoing ++ e.socket.incoming)
    (hStart : e.world.status.peerMonitors = [])
    (master : Run (sessionSystem na key timely) (Prog.iterate link TcpServer.sessionRound) e past
      (.op (.channelReceive deadline') next') e') :
    ∃ read unread, (read ++ unread).Sublist (looks told) ∧ (read ++ unread).getLast? = (looks told).getLast? ∧
      e'.world.status.peerMonitors = (read.getLast?.map clipped).getD [] ∧
      (e'.socket.incoming = [] → unread = []) := by
  obtain ⟨monitors, hLast, lists, ⟨hLists, hSeen⟩, hNewest⟩ := (session_safe c d ik init).ok_of_run slave
  obtain ⟨bytes, hBytes, hStream⟩ := hSent.stream hShort
  obtain rfl := List.append_cancel_left (hWire.symm.trans hBytes)
  rw [← hNonce] at hStream
  have hShowing : Showing na key (msgs.map Message.piece) [] [] [] e := ⟨⟨[], _, rfl, rfl, hStream⟩, [], rfl, hStart⟩
  obtain ⟨⟨taken, rest, hPieces, hResults, hLeft⟩, dealt, hDelivered, hShown⟩ :=
    (serverLoop_safe hNa link hShowing).ok_of_run master
  obtain ⟨got, left, rfl, rfl, rfl⟩ := List.map_eq_append_iff.mp hPieces
  have hDealt : dealt = got := by
    rw [List.append_nil, RemoteInput.delivered_of_results hResults] at hDelivered
    exact hDelivered.symm
  subst hDealt
  rw [hLists, List.filter_append, List.map_append] at hReports
  obtain ⟨read, unread, rfl, hRead, hUnread⟩ := List.append_eq_map_iff.mp hReports
  refine ⟨read, unread, hSeen, hNewest.trans hLast.symm, ?_, ?_⟩
  · rw [hShown, heard_reports hRead.symm]
  · intro hAll
    rw [hAll] at hLeft
    rw [RemoteInput.left_of_incoming hLeft] at hUnread
    exact List.map_eq_nil_iff.mp hUnread

/-- The monitors that a look finds are chosen. -/
inductive LookChoice where
  | world (x : Choice)
  | monitors (monitors : List MonitorInfo)

def respondLook : (o : Op) → World → LookChoice → Option (Ans o × World)
  | .getLocalMonitors, w, .monitors monitors => some (monitors, w)
  | _, _, .monitors _ => none
  | o, w, .world x => World.respond o w x

/-- Every answer that is played is one that the world can give. -/
theorem exec_of_respondLook {o : Op} {w w' : World} {x : LookChoice} {r : Ans o}
    (h : respondLook o w x = some (r, w')) : World.exec o w r w' := by
  cases x with
  | world x => exact World.exec_of_respond (by cases o <;> exact h)
  | monitors monitors =>
      cases o with
      | getLocalMonitors =>
          cases h
          rfl
      | _ => cases h

def lookPlayer : Player (connSystem fun _ => True) LookChoice where
  respond := respondLook
  respond_exec := exec_of_respondLook
  react a w := some (w.act a)
  react_env h := ⟨trivial, (Option.some.inj h).symm⟩

def laptopScreen : MonitorInfo := { width := 1920, height := 1080, primary := true, name := [0x41] }

def deskScreen : MonitorInfo := { laptopScreen with x := 1920, primary := false, name := [0x42] }

def usual (count : Nat) : List (Cue Action LookChoice) :=
  List.replicate count (.answer (.world .usual))

/-- A second screen is plugged in. -/
def plugged : List (Cue Action LookChoice) :=
  usual 3 ++ .answer (.monitors [laptopScreen]) :: usual 5 ++ .enter :: usual 3 ++
    .answer (.world (.time kHeartbeatInterval)) :: usual 2 ++ .answer (.monitors [laptopScreen, deskScreen]) :: usual 1 ++
    .enter :: usual 2

def freshWorld : World := World.fresh ⟨fun _ => none, fun _ => none⟩ []

def slaveKeys : IkResult UInt8 where
  peerStatic := (plainKeypair 2).publicKey
  keys := ⟨sessionKey, sessionKey⟩

def slaveSession : ConnProg AttemptOutcome := TcpClient.session RemoteInput.slave 2 slaveKeys

/-- Both lists are on their way. -/
def reported (c : Config Op Ans Action World AttemptOutcome) : Bool :=
  match c.prog with
  | .op (.channelReceive _) _ => looks c.past = [[laptopScreen], [laptopScreen, deskScreen]] ∧
      reports c.past = [[laptopScreen], [laptopScreen, deskScreen]].map encodeMonitorList
  | _ => false

/-- The Slave finds a second screen and reports both lists in turn. -/
theorem exists_reported : ∃ told deadline next w,
    Run (connSystem fun _ => True) slaveSession freshWorld told (.op (.channelReceive deadline) next) w ∧
      looks told = [[laptopScreen], [laptopScreen, deskScreen]] ∧
      reports told = [[laptopScreen], [laptopScreen, deskScreen]].map encodeMonitorList := by
  obtain ⟨told, p, w, hRun, hReported⟩ := lookPlayer.exists_run slaveSession freshWorld plugged reported (by decide +kernel)
  unfold reported at hReported
  split at hReported
  · rename_i deadline next hProg
    obtain rfl : p = .op (.channelReceive deadline) next := hProg
    exact ⟨told, deadline, next, w, hRun, of_decide_eq_true hReported⟩
  · cases hReported

/-- What the Slave sends. -/
def slaveMessages : List Message :=
  [⟨kMsgMonitorList, encodeMonitorList [laptopScreen]⟩, ⟨kMsgHeartbeat, []⟩, ⟨kMsgPing, encodePingSeq 0⟩,
    ⟨kMsgMonitorList, encodeMonitorList [laptopScreen, deskScreen]⟩]

def hearingSlave : Endpoint := SessionLoop.hearing (ChannelDelivery.wireBytes plainSodium sessionKey 0 slaveMessages)

/-- The first message is dealt with. -/
def firstShown (c : Config Op Ans Action Endpoint Unit) : Bool :=
  match c.prog with
  | .op (.channelReceive _) _ => c.state.world.status.peerMonitors = [laptopScreen]
  | _ => false

/-- The Master has dealt with the first of them, and waits for the next. -/
theorem exists_firstShown : ∃ past deadline next e',
    Run (sessionSystem plainSodium sessionKey timely) (Prog.iterate SessionLoop.idleLink TcpServer.sessionRound)
      hearingSlave past (.op (.channelReceive deadline) next) e' ∧ e'.world.status.peerMonitors = [laptopScreen] := by
  obtain ⟨past, p, e', hRun, hShown⟩ := (RemoteInput.player plainSodium sessionKey).exists_run
    (Prog.iterate SessionLoop.idleLink TcpServer.sessionRound) hearingSlave
    (.enter :: SessionLoop.does 3 ++ .answer (.receive SecureChannel.readWhole) :: SessionLoop.does 4 ++
      .enter :: SessionLoop.does 3) firstShown (by decide +kernel)
  unfold firstShown at hShown
  split at hShown
  · rename_i deadline next hProg
    obtain rfl : p = .op (.channelReceive deadline) next := hProg
    exact ⟨past, deadline, next, e', hRun, of_decide_eq_true hShown⟩
  · cases hShown

/-- What the Master shows then is the first list, and the second one is still
on its way. -/
theorem monitors_follow_plugged : ∃ read unread : List (List MonitorInfo),
    (read ++ unread).Sublist [[laptopScreen], [laptopScreen, deskScreen]] ∧
      (read ++ unread).getLast? = some [laptopScreen, deskScreen] ∧
      (read.getLast?.map clipped).getD [] = [laptopScreen] := by
  have hNa := plainSodium_contract.toAeadContract
  have hShort : ∀ m ∈ slaveMessages, m.payload.length ≤ kMaxFrameLen.toNat - 17 := by decide +kernel
  obtain ⟨sent, hSent, hWire⟩ := ChannelDelivery.exists_sends hNa sessionKey hShort {}
  obtain ⟨told, deadline, next, w, hSlave, hLooks, hReports⟩ := exists_reported
  obtain ⟨past, deadline', next', e', hMaster, hShown⟩ := exists_firstShown
  have hMessages : (slaveMessages.filter isReport).map Message.payload = reports told := by
    rw [hReports]
    decide +kernel
  obtain ⟨read, unread, hSublist, hLast, hRead, -⟩ := monitors_follow hNa RemoteInput.slave 2 slaveKeys
    SessionLoop.idleLink hSlave hMessages hShort hSent (e := hearingSlave) rfl hWire rfl hMaster
  rw [hLooks] at hSublist hLast
  exact ⟨read, unread, hSublist, hLast, hRead.symm.trans hShown⟩

end NoCapKVM.App.PeerMonitors
