import NoCapKVM.Discovery.PeerTable

/-! What a listener's table has to do with what the devices announce. -/
namespace NoCapKVM.Discovery

open Thread

abbrev LanLabel := Label ListenerOp ListenerAns LanAct

namespace Listener

variable (listener : Listener)

/-- The announcement of another device in an answer of `recvfrom`. -/
def arrived (received : Option (InAddr × List UInt8)) : Option (InAddr × DecodedAnnounce) :=
  received.bind fun (from_, data) => (listener.accepts data).map fun decoded => (from_, decoded)

/-- All announcements of other devices that have arrived, newest first. Each
counts from the first look at the clock after it, and the first argument is
the look before what is to come. -/
def heard : Option Time → List LanLabel → List PeerInfo
  | _, [] => []
  | _, .did .now r :: older => heard (some r) older
  | look, .did .recvfrom received :: older =>
      match listener.arrived received, look with
      | some (from_, decoded), some lastSeen => decoded.peer from_ lastSeen :: heard none older
      | _, _ => heard none older
  | look, _ :: older => heard look older

end Listener

/-- What the clock showed when the listener last looked. -/
def lastLook : List LanLabel → Time
  | [] => 0
  | .did .now r :: _ => r
  | _ :: older => lastLook older

/-- The last entry of a device, if it is not too old. -/
def upToDate (log : List PeerInfo) (now : Time) (deviceId : UInt64) : Option PeerInfo :=
  (KeyedList.lookup PeerInfo.deviceId log deviceId).filter (ExpiringTable.Fresh PeerInfo.lastSeen kPeerTimeout now)

/-- The table says of `rows` what is not too old. -/
structure Current (rows : List PeerInfo) (past : List LanLabel) (s : Lan) : Prop where
  apart : s.table.peers.Pairwise fun a b => a.deviceId ≠ b.deviceId
  agrees : ExpiringTable.Agrees PeerInfo.lastSeen kPeerTimeout PeerInfo.deviceId s.table.peers rows (lastLook past)
  clock : lastLook past ≤ s.clock

/-- `log` is what has been heard, and `rows` what of it is in the table. -/
def Tracks (listener : Listener) (log rows : List PeerInfo) : Assertion ListenerOp ListenerAns LanAct Lan :=
  fun past s => (∀ look, listener.heard look past = log) ∧ Current rows past s

/-- All that has been heard is in the table. -/
def UpToDate (listener : Listener) : Assertion ListenerOp ListenerAns LanAct Lan :=
  fun past s => ∃ log, Tracks listener log log past s

/-- The peer is what an announcement said that has arrived. -/
def Told (listener : Listener) (peer : PeerInfo) (past : List LanLabel) : Prop :=
  ∃ from_ data decoded, .did .recvfrom (some (from_, data)) ∈ past ∧ listener.accepts data = some decoded ∧
    peer = decoded.peer from_ peer.lastSeen

/-- The listener has not looked at the clock since the announcement came. -/
def Pending (listener : Listener) (from_ : InAddr) (decoded : DecodedAnnounce) (log : List PeerInfo) :
    Assertion ListenerOp ListenerAns LanAct Lan :=
  fun past s => (∀ lastSeen, listener.heard (some lastSeen) past = decoded.peer from_ lastSeen :: log ∧
    Told listener (decoded.peer from_ lastSeen) past) ∧ Current log past s

/-- Every row was fresh when the listener last looked. -/
def Pruned : Assertion ListenerOp ListenerAns LanAct Lan :=
  fun past s => ∀ peer ∈ s.table.peers, ExpiringTable.Fresh PeerInfo.lastSeen kPeerTimeout (lastLook past) peer = true

variable {os : Os} {listener : Listener} {log rows : List PeerInfo} {past : List LanLabel} {s s' : Lan}
  {from_ : InAddr} {decoded : DecodedAnnounce} {peer : PeerInfo}

/-- What a peer has announced stays announced. -/
theorem Told.later (h : Told listener peer past) (l : LanLabel) : Told listener peer (l :: past) := by
  obtain ⟨from_, data, decoded, hMem, hAccepts, hPeer⟩ := h
  exact ⟨from_, data, decoded, List.mem_cons_of_mem l hMem, hAccepts, hPeer⟩

/-- Only the listener's thread changes the table, and the clock
goes forward. -/
theorem acts_quiet {a : LanAct} (h : (lan os).env a s s') : s'.table = s.table ∧ s.clock ≤ s'.clock := by
  cases a with
  | announces host =>
      obtain ⟨packet, -, rfl⟩ := h
      exact ⟨rfl, le_rfl⟩
  | forges from_ data =>
      obtain rfl := h
      exact ⟨rfl, le_rfl⟩
  | passes time =>
      obtain rfl := h
      exact ⟨rfl, Nat.le_add_right s.clock time⟩
  | peers snapshot =>
      obtain ⟨rfl, -⟩ := h
      exact ⟨rfl, le_rfl⟩
  | stops =>
      obtain rfl := h
      exact ⟨rfl, le_rfl⟩

/-- The other threads only look at the table, so what it says stays current
until the clock is read again. -/
theorem current_stable (rows : List PeerInfo) : Stable (lan os) (Current rows) := by
  intro past s a s' h hAct
  obtain ⟨hTable, hClock⟩ := acts_quiet hAct
  refine ⟨?_, ?_, h.clock.trans hClock⟩
  · rw [hTable]
    exact h.apart
  · rw [hTable]
    exact h.agrees

/-- The rows that were fresh at the last look stay what they were. -/
theorem pruned_stable : Stable (lan os) Pruned := by
  intro past s a s' h hAct
  unfold Pruned
  rw [(acts_quiet hAct).1]
  exact h

/-- Nobody but the listener reads its socket or writes its table. -/
theorem tracks_stable (log rows : List PeerInfo) : Stable (lan os) (Tracks listener log rows) :=
  Stable.and (fun _ _ _ _ h _ => h) (current_stable rows)

/-- So between two operations of the listener, its table is as up to
date as before. -/
theorem upToDate_stable : Stable (lan os) (UpToDate listener) := by
  rintro past s a s' ⟨log, h⟩ hAct
  exact ⟨log, tracks_stable log log past s a s' h hAct⟩

/-- What was announced does not depend on what happens later. -/
theorem told_stable (peer : PeerInfo) : Stable (lan os) fun past _ => Told listener peer past :=
  fun _ _ a _ h _ => h.later (.env a)

/-- An announcement that has come stays to be noted until the
listener does so. -/
theorem pending_stable (log : List PeerInfo) : Stable (lan os) (Pending listener from_ decoded log) :=
  Stable.and (fun _ _ a _ h _ lastSeen => ⟨(h lastSeen).1, (h lastSeen).2.later (.env a)⟩) (current_stable log)

/-- Where the listener waits, the table is up to date, and what goes into it
was announced. -/
def listens (listener : Listener) : ListenerOp → Assertion ListenerOp ListenerAns LanAct Lan
  | .recvfrom => fun past s => UpToDate listener past s ∧ Pruned past s
  | .upsert peer => fun past _ => Told listener peer past
  | _ => fun _ _ => True

/-- The clock has been looked at. -/
theorem Current.look (h : Current rows past s) : Current rows (.did .now s.clock :: past) s where
  apart := h.apart
  agrees := h.agrees.later h.clock
  clock := le_rfl

/-- A row that is put in replaces the one of the same device, and is the
newest of all. -/
theorem Current.upsert (h : Current rows past s) (peer : PeerInfo) :
    Current (peer :: rows) (.did (.upsert peer) () :: past) { s with table := s.table.upsert peer } where
  apart := KeyedList.pairwise_put h.apart peer
  agrees := h.agrees.put peer
  clock := h.clock

/-- A prune takes away exactly the rows that are too old at the time of the
last look. -/
theorem Current.prune (h : Current rows past s) :
    Current rows (.did (.prune (lastLook past) kPeerTimeout) () :: past)
      { s with table := s.table.prune (lastLook past) kPeerTimeout } where
  apart := ExpiringTable.pairwise_prune h.apart _
  agrees := h.agrees.prune h.apart
  clock := h.clock

/-- What a packet leads to is decided by whether an announcement of another
device has arrived. -/
theorem note_eq (received : Option (InAddr × List UInt8)) :
    listener.note received =
      match listener.arrived received with
      | some (from_, decoded) => (do
          let lastSeen ← Listener.perform .now
          Listener.perform (.upsert (decoded.peer from_ lastSeen)))
      | none => pure () := by
  match received with
  | none => rfl
  | some (from_, []) => rfl
  | some (from_, byte :: data) =>
      cases hAccepts : listener.accepts (byte :: data) with
      | none => simp [Listener.note, Listener.arrived, hAccepts]
      | some decoded => simp [Listener.note, Listener.arrived, hAccepts]

/-- Nothing is noted about a datagram that is not the announcement of
another device. -/
theorem Tracks.skip (h : Tracks listener log log past s) {received : Option (InAddr × List UInt8)}
    (hArrived : listener.arrived received = none) : Tracks listener log log (.did .recvfrom received :: past) s := by
  refine ⟨fun look => ?_, h.2.apart, h.2.agrees, h.2.clock⟩
  have hHeard : listener.heard look (.did .recvfrom received :: past) = listener.heard none past := by
    cases look <;> simp [Listener.heard, hArrived]
  rw [hHeard, h.1]

/-- An announcement that arrives is heard before the table has it. -/
theorem Tracks.arrive (h : Tracks listener log log past s) {received : Option (InAddr × List UInt8)}
    (hArrived : listener.arrived received = some (from_, decoded)) :
    Pending listener from_ decoded log (.did .recvfrom received :: past) s := by
  refine ⟨fun lastSeen => ⟨?_, ?_⟩, h.2.apart, h.2.agrees, h.2.clock⟩
  · rw [← h.1 none]
    simp [Listener.heard, hArrived]
  · obtain ⟨⟨from_', data⟩, rfl, hData⟩ := Option.bind_eq_some_iff.mp hArrived
    obtain ⟨decoded', hAccepts, hPair⟩ := Option.map_eq_some_iff.mp hData
    obtain ⟨rfl, rfl⟩ := Prod.mk.inj hPair
    exact ⟨from_', data, decoded', List.mem_cons_self, hAccepts, rfl⟩

/-- Noting what was received makes the table up to date again. -/
theorem note_safe {received : Option (InAddr × List UInt8)} (h : Tracks listener log log past s) :
    Safe (lan os) (listens listener) (listener.note received) (fun _ => UpToDate listener)
      (.did .recvfrom received :: past) s := by
  rw [note_eq]
  cases hArrived : listener.arrived received with
  | none => exact .ret_of (UpToDate listener) (by rfl) upToDate_stable ⟨log, h.skip hArrived⟩
  | some announcement =>
      obtain ⟨from_, decoded⟩ := announcement
      refine .op _ (pending_stable log) (h.arrive hArrived) (fun _ _ _ => trivial) ?_
      intro past s lastSeen s' h hExec
      obtain ⟨rfl, rfl⟩ := hExec
      have hNoted : Tracks listener (decoded.peer from_ s'.clock :: log) log (.did .now s'.clock :: past) s' :=
        ⟨fun _ => (h.1 s'.clock).1, h.2.look⟩
      refine .op (fun past s => Tracks listener (decoded.peer from_ s'.clock :: log) log past s ∧
        Told listener (decoded.peer from_ s'.clock) past) ((tracks_stable _ log).and (told_stable _))
        ⟨hNoted, (h.1 s'.clock).2.later _⟩ (fun _ _ h => h.2) ?_
      intro past s _ s'' h hExec
      obtain rfl := hExec
      exact .ret_of (UpToDate listener) (by rfl) upToDate_stable
        ⟨_, h.1.1, h.1.2.upsert (decoded.peer from_ s'.clock)⟩

/-- After a prune every row is fresh at that time. -/
theorem prune_pruned (now : Time) (table : PeerTable) :
    ∀ peer ∈ (table.prune now kPeerTimeout).peers, ExpiringTable.Fresh PeerInfo.lastSeen kPeerTimeout now peer = true :=
  fun _ hMem => (List.mem_filter.mp hMem).2

/-- The table as it is at the start of a round. -/
theorem run_safe (start : Lan) (hEmpty : start.table = {}) :
    Safe (lan os) (listens listener) listener.run (fun _ _ _ => True) [] start := by
  refine .iterate (fun _ past s => UpToDate listener past s ∧ Pruned past s)
    (fun _ => upToDate_stable.and pruned_stable) (fun _ _ _ _ _ _ _ => trivial) ?_ ?_
  · refine ⟨⟨[], fun _ => rfl, ?_, ?_, Nat.zero_le _⟩, ?_⟩
    · rw [hEmpty]
      exact .nil
    · rw [hEmpty]
      exact ExpiringTable.agrees_nil 0
    · unfold Pruned
      rw [hEmpty]
      nofun
  intro _ past s h
  refine .op _ (upToDate_stable.and pruned_stable) h (fun _ _ _ => trivial) ?_
  intro past s running s' h hExec
  obtain ⟨rfl, -⟩ := hExec
  cases running with
  | false => exact .ret (fun _ _ _ _ _ _ => trivial) trivial
  | true =>
      obtain ⟨⟨log, hSettled, hCurrent⟩, hPruned⟩ := h
      have hWaiting : UpToDate listener (.did .running true :: past) s' :=
        ⟨log, hSettled, hCurrent.apart, hCurrent.agrees, hCurrent.clock⟩
      refine .op (fun past s => UpToDate listener past s ∧ Pruned past s) (upToDate_stable.and pruned_stable)
        ⟨hWaiting, hPruned⟩ (fun _ _ h => h) ?_
      intro past s received s' h hExec
      obtain ⟨log, hTracks⟩ := h.1
      obtain rfl : s' = s := by
        match received, hExec with
        | none, hSame => exact hSame
        | some (from_, data), hSame => exact hSame.1
      show Safe (lan os) (listens listener) ((listener.note received).bind _) _ _ _
      refine Safe.bind ((note_safe hTracks).mono ?_)
      intro _ past s h
      refine .op _ upToDate_stable h (fun _ _ _ => trivial) ?_
      intro past s now s' h hExec
      obtain ⟨rfl, rfl⟩ := hExec
      obtain ⟨log, hTracks⟩ := h
      have hLooked : Tracks listener log log (.did .now s'.clock :: past) s' :=
        ⟨fun _ => hTracks.1 (some s'.clock), hTracks.2.look⟩
      refine .op (fun past s => Tracks listener log log past s ∧ lastLook past = s'.clock)
        ((tracks_stable log log).and fun _ _ _ _ h _ => h) ⟨hLooked, rfl⟩ (fun _ _ _ => trivial) ?_
      intro past s _ s'' h hExec
      obtain rfl := hExec
      obtain ⟨⟨hSettled, hCurrent⟩, hLook⟩ := h
      refine .ret_of (fun past s => UpToDate listener past s ∧ Pruned past s) rfl (upToDate_stable.and pruned_stable)
        ⟨⟨log, hSettled, ?_⟩, ?_⟩
      · rw [← hLook]
        exact hCurrent.prune
      · rw [← hLook]
        exact prune_pruned _ s.table

/-- Where the listener waits, its peers are the devices that it has heard,
each as it last announced itself, less those that it had not heard for too
long when it last looked. -/
theorem peers_as_heard {start : Lan} (hEmpty : start.table = {}) {next : ListenerAns .recvfrom → ListenerProg Unit}
    (hRun : Run (lan os) listener.run start past (.op .recvfrom next) s) {snapshot : List PeerInfo}
    (hPeers : (lan os).env (.peers snapshot) s s') :
    (snapshot.map PeerInfo.deviceId).Nodup ∧
      ∀ peer, peer ∈ snapshot ↔ upToDate (listener.heard none past) (lastLook past) peer.deviceId = some peer := by
  obtain ⟨⟨log, hSettled, hCurrent⟩, hPruned⟩ := (run_safe start hEmpty).ok_of_run hRun
  obtain ⟨-, hPerm⟩ := hPeers
  constructor
  · refine (hPerm.map _).nodup_iff.mpr ?_
    exact List.pairwise_map.mpr hCurrent.apart
  · intro peer
    rw [hPerm.mem_iff, KeyedList.mem_iff_lookup hCurrent.apart, hCurrent.agrees.lookup hCurrent.apart hPruned, hSettled]
    rfl

namespace Announcer

/-- The announcer sends its packet to every target, and does nothing else in
between. -/
theorem sendAll_uses {P : AnnouncerOp → Prop} {packet : List UInt8} (h : ∀ target, P (.sendto target packet))
    (targets : List InAddr) : (sendAll packet targets).Uses P := by
  induction targets with
  | nil => trivial
  | cons target targets ih => exact ⟨h target, fun _ => ih⟩

theorem rest_uses {P : AnnouncerOp → Prop} (hRunning : P .running) (hSleep : ∀ duration, P (.sleep duration)) (n : Nat) :
    (rest n).Uses P := by
  induction n with
  | zero => trivial
  | succ n ih =>
      refine ⟨hRunning, fun running => ?_⟩
      cases running with
      | false => trivial
      | true => exact ⟨hSleep _, fun _ => ih⟩

/-- So its loop sends one packet to the targets of the moment, and sleeps. -/
theorem loop_uses {P : AnnouncerOp → Prop} {packet : List UInt8} (hSend : ∀ target, P (.sendto target packet))
    (hRunning : P .running) (hTargets : P .getBroadcastTargets) (hSleep : ∀ duration, P (.sleep duration)) :
    (loop packet).Uses P := by
  refine ⟨fun _ => ?_, fun _ => trivial⟩
  refine ⟨hRunning, fun running => ?_⟩
  cases running with
  | false => trivial
  | true =>
      refine ⟨hTargets, fun targets => ?_⟩
      exact (sendAll_uses hSend _).bind fun _ => (rest_uses hRunning hSleep 10).bind fun _ => trivial

def Carries (announcer : Announcer) : AnnouncerOp → Prop
  | .sendto _ packet =>
      encodeAnnounce announcer.deviceId announcer.role announcer.tcpPort announcer.hostname = some packet
  | _ => True

/-- An announcer has a single packet to send. -/
theorem run_carries (announcer : Announcer) : announcer.run.Uses announcer.Carries := by
  unfold run
  split
  case h_1 packet hEncoded => exact loop_uses (fun _ => hEncoded) trivial trivial fun _ => trivial
  case h_2 => trivial

/-- What an announcer sends is the encoding of its own id, role,
port and name. -/
theorem Sends.encoded {announcer : Announcer} {packet : List UInt8} (h : announcer.Sends packet) :
    encodeAnnounce announcer.deviceId announcer.role announcer.tcpPort announcer.hostname = some packet := by
  obtain ⟨past, target, next, hPerforms⟩ := h
  exact (hPerforms.uses (run_carries announcer)).1

end Announcer

/-- Who sent a datagram. -/
def Source (past : List LanLabel) (from_ : InAddr) (data : List UInt8) : Prop :=
  (∃ host : Host, .env (.announces host) ∈ past ∧ host.address = from_ ∧ host.announcer.Sends data) ∨
    .env (.forges from_ data) ∈ past

/-- Who has sent a datagram is a fact about the past. -/
theorem Source.mono {past' : List LanLabel} {data : List UInt8} (h : Source past from_ data) (hSub : past ⊆ past') :
    Source past' from_ data :=
  h.imp (fun ⟨host, hMem, hRest⟩ => ⟨host, hSub hMem, hRest⟩) fun hMem => hSub hMem

/-- The listener itself sends nothing. -/
theorem exec_sent {o : ListenerOp} {r : ListenerAns o} (h : (lan os).exec o s r s') : s'.sent = s.sent := by
  cases o with
  | running | now => rw [h.1]
  | upsert | prune => rw [h]
  | recvfrom =>
      match r, h with
      | none, hSame => rw [hSame]
      | some (from_, data), hSame => rw [hSame.1]

/-- A datagram in the network was there before, or has just been sent by
somebody. -/
theorem act_sent {a : LanAct} (h : (lan os).env a s s') {data : List UInt8} (hMem : (from_, data) ∈ s'.sent) :
    (from_, data) ∈ s.sent ∨ Source [.env a] from_ data := by
  cases a with
  | announces host =>
      obtain ⟨packet, hSends, rfl⟩ := h
      rcases List.mem_cons.mp hMem with hNew | hOld
      · obtain ⟨rfl, rfl⟩ := Prod.mk.inj hNew
        exact .inr (.inl ⟨host, List.mem_cons_self, rfl, hSends⟩)
      · exact .inl hOld
  | forges from_ data =>
      obtain rfl := h
      rcases List.mem_cons.mp hMem with hNew | hOld
      · obtain ⟨rfl, rfl⟩ := Prod.mk.inj hNew
        exact .inr (.inr List.mem_cons_self)
      · exact .inl hOld
  | passes time | stops =>
      obtain rfl := h
      exact .inl hMem
  | peers snapshot =>
      obtain ⟨rfl, -⟩ := h
      exact .inl hMem

/-- What is in the network was sent, what has arrived was in the network, and
what is in the table was told by something that has arrived. -/
structure Traced (os : Os) (listener : Listener) (past : List LanLabel) (s : Lan) : Prop where
  sent : ∀ from_ data, (from_, data) ∈ s.sent → Source past from_ data
  arrived : ∀ from_ data, .did .recvfrom (some (from_, data)) ∈ past →
    ∃ whole, Source past from_ whole ∧ os.cut whole = some data
  told : ∀ peer ∈ s.table.peers, Told listener peer past

/-- What is in the network, in the socket and in the table has a source,
whatever the other hosts do. -/
theorem traced_stable : Stable (lan os) (Traced os listener) := by
  intro past s a s' h hAct
  refine ⟨?_, ?_, ?_⟩
  · intro from_ data hMem
    rcases act_sent hAct hMem with hOld | hNew
    · exact (h.sent from_ data hOld).mono (List.subset_cons_self _ _)
    · exact hNew.mono (by simp)
  · intro from_ data hMem
    obtain ⟨whole, hSource, hCut⟩ := h.arrived from_ data (by simpa using hMem)
    exact ⟨whole, hSource.mono (List.subset_cons_self _ _), hCut⟩
  · intro peer hMem
    rw [(acts_quiet hAct).1] at hMem
    exact (h.told peer hMem).later _

/-- And so it is after each operation of the listener. -/
theorem Traced.did (h : Traced os listener past s) {o : ListenerOp} {r : ListenerAns o} (hOk : listens listener o past s)
    (hExec : (lan os).exec o s r s') : Traced os listener (.did o r :: past) s' := by
  refine ⟨?_, ?_, ?_⟩
  · intro from_ data hMem
    rw [exec_sent hExec] at hMem
    exact (h.sent from_ data hMem).mono (List.subset_cons_self _ _)
  · intro from_ data hMem
    rcases List.mem_cons.mp hMem with hNew | hOld
    · cases hNew
      obtain ⟨-, whole, hSent, hCut⟩ := hExec
      exact ⟨whole, (h.sent from_ whole hSent).mono (List.subset_cons_self _ _), hCut⟩
    · obtain ⟨whole, hSource, hCut⟩ := h.arrived from_ data hOld
      exact ⟨whole, hSource.mono (List.subset_cons_self _ _), hCut⟩
  · intro peer hMem
    have hTold : Told listener peer past := by
      cases o with
      | upsert new =>
          obtain rfl := hExec
          rcases KeyedList.mem_of_mem_put PeerInfo.deviceId hMem with rfl | hOld
          · exact hOk
          · exact h.told peer hOld
      | prune now maxAge =>
          obtain rfl := hExec
          exact h.told peer (List.mem_of_mem_filter hMem)
      | running | now =>
          obtain ⟨rfl, -⟩ := hExec
          exact h.told peer hMem
      | recvfrom =>
          match r, hExec with
          | none, hSame => exact h.told peer (hSame ▸ hMem)
          | some (from_, data), hSame => exact h.told peer (hSame.1 ▸ hMem)
    exact hTold.later _

/-- What a listener accepts is a packet that decodes, and not its own. -/
theorem accepts_decoded {data : List UInt8} (h : listener.accepts data = some decoded) :
    decodeAnnounce data = some (some decoded) ∧ decoded.deviceId ≠ listener.ownDeviceId := by
  unfold Listener.accepts at h
  split at h
  · split at h
    · rename_i hDecoded hOther
      cases h
      exact ⟨hDecoded, hOther⟩
    · cases h
  · cases h

/-- How a host appears in the tables of others. -/
def Host.listed (host : Host) (lastSeen : Time) : PeerInfo where
  deviceId := host.announcer.deviceId
  hostname := host.announcer.hostname.take kMaxHostnameLen
  role := host.announcer.role
  tcpPort := host.announcer.tcpPort
  ipAddress := inetNtop host.address
  lastSeen := lastSeen

/-- An announcement says of its sender what the sender is. -/
theorem Announcer.Sends.heard {host : Host} {whole data : List UInt8} (hSends : host.announcer.Sends whole)
    (hCut : os.cut whole = some data) (hAccepts : listener.accepts data = some decoded) (lastSeen : Time) :
    decoded.peer host.address lastSeen = host.listed lastSeen := by
  obtain ⟨packet, hPacket, hLength, hDecoded⟩ := announce_codec.1 host.announcer.deviceId host.announcer.role
    host.announcer.tcpPort host.announcer.hostname
  obtain rfl : whole = packet := Option.some.inj (hSends.encoded.symm.trans hPacket)
  obtain rfl : whole = data := by
    rw [Os.cut_of_le hLength.le] at hCut
    exact Option.some.inj hCut
  rw [(accepts_decoded hAccepts).1, Option.some.injEq, Option.some.injEq] at hDecoded
  rw [hDecoded]
  rfl

/-- Wherever the listener is, its peers are other devices as they have
announced themselves, unless somebody else speaks for them. -/
theorem peers_announced {start : Lan} (hEmpty : start.table = {}) (hSent : start.sent = []) {p : ListenerProg Unit}
    (hRun : Run (lan os) listener.run start past p s) (hHonest : ∀ from_ data, .env (.forges from_ data) ∉ past)
    {snapshot : List PeerInfo} (hPeers : (lan os).env (.peers snapshot) s s') :
    ∀ peer ∈ snapshot, peer.deviceId ≠ listener.ownDeviceId ∧
      ∃ host, .env (.announces host) ∈ past ∧ peer = host.listed peer.lastSeen := by
  have hTraced : Traced os listener past s := by
    refine (run_safe start hEmpty).invariant (Traced os listener) traced_stable (fun _ _ _ _ _ hOk h => h.did hOk) ?_ hRun
    refine ⟨?_, nofun, ?_⟩
    · rw [hSent]
      nofun
    · rw [hEmpty]
      nofun
  intro peer hMem
  obtain ⟨from_, data, decoded, hArrived, hAccepts, hPeer⟩ := hTraced.told peer (hPeers.2.mem_iff.mp hMem)
  obtain ⟨whole, hSource, hCut⟩ := hTraced.arrived from_ data hArrived
  rcases hSource with ⟨host, hHost, rfl, hSends⟩ | hForged
  · refine ⟨?_, host, hHost, hPeer.trans (hSends.heard hCut hAccepts _)⟩
    rw [hPeer]
    exact (accepts_decoded hAccepts).2
  · exact absurd hForged (hHonest from_ whole)

def laptop : Host := ⟨⟨192, 168, 0, 2⟩, ⟨7, .master, 5000, [104, 105]⟩⟩

def desktop : Listener := ⟨1⟩

/-- The packet of the laptop arrives at the desktop as what the laptop is. -/
theorem laptop_sends : ∃ packet, laptop.announcer.Sends packet ∧ packet.length = kAnnouncePacketSize ∧
    desktop.arrived (some (laptop.address, packet)) = some (laptop.address, ⟨7, .master, 5000, [104, 105]⟩) := by
  obtain ⟨packet, hPacket, hLength, hDecoded⟩ := announce_codec.1 laptop.announcer.deviceId laptop.announcer.role
    laptop.announcer.tcpPort laptop.announcer.hostname
  have hSends : laptop.announcer.Sends packet := by
    have hRun : laptop.announcer.run = Announcer.loop packet := by
      unfold Announcer.run
      rw [hPacket]
    unfold Announcer.Sends
    rw [hRun]
    exact ⟨[⟨.running, true⟩, ⟨.getBroadcastTargets, []⟩], INADDR_BROADCAST, _, .loop (.op (.op (.nil _)))⟩
  have hArrived : desktop.arrived (some (laptop.address, packet)) =
      some (laptop.address, ⟨7, .master, 5000, [104, 105]⟩) := by
    simp [Listener.arrived, Listener.accepts, hDecoded, desktop, laptop, kMaxHostnameLen]
  exact ⟨packet, hSends, hLength, hArrived⟩

/-- The laptop is heard at once, and the desktop waits again. -/
theorem exists_heard : ∃ past next s, Run (lan .linux) desktop.run {} past (.op .recvfrom next) s ∧
    s.table.peers = [laptop.listed 0] ∧ ∀ from_ data, .env (.forges from_ data) ∉ past := by
  obtain ⟨packet, hSends, hLength, hArrived⟩ := laptop_sends
  have hAnnounces : (lan .linux).env (.announces laptop) {} { sent := [(laptop.address, packet)] } :=
    ⟨packet, hSends, rfl⟩
  have hRunning : ∀ s : Lan, (lan .linux).exec .running s s.running s := fun s => ⟨rfl, rfl⟩
  have hNow : ∀ s : Lan, (lan .linux).exec .now s s.clock s := fun s => ⟨rfl, rfl⟩
  have hReceives : (lan .linux).exec .recvfrom { sent := [(laptop.address, packet)] }
      (some (laptop.address, packet)) { sent := [(laptop.address, packet)] } :=
    ⟨rfl, packet, List.mem_cons_self, Os.cut_of_le hLength.le⟩
  have hStart : Run (lan .linux) desktop.run {} [] desktop.run {} := .start
  have waiting := ((hStart.step (.env hAnnounces)).step (.loop _ _ _ _)).did (hRunning _)
  have received : Run (lan .linux) desktop.run {} _ (((desktop.note (some (laptop.address, packet))).bind _).bind _) _ :=
    waiting.did hReceives
  rw [note_eq, hArrived] at received
  have pruned := (((received.did (hNow _)).did (r := ()) rfl).did (hNow _)).did (r := ()) rfl
  have again := (pruned.step (.loop _ _ _ _)).did (hRunning _)
  exact ⟨_, _, _, again, rfl, by simp⟩

/-- Another thread may look at the table at any time. -/
theorem snapshot_of (s : Lan) : (lan .linux).env (.peers s.table.peers) s s :=
  ⟨rfl, .refl _⟩

/-- The desktop has heard the laptop, and lists it. -/
theorem peers_as_heard_laptop : ∃ past next s, Run (lan .linux) desktop.run {} past (.op .recvfrom next) s ∧
    s.table.peers = [laptop.listed 0] ∧
      upToDate (desktop.heard none past) (lastLook past) laptop.announcer.deviceId = some (laptop.listed 0) := by
  obtain ⟨past, next, s, hRun, hTable, -⟩ := exists_heard
  refine ⟨past, next, s, hRun, hTable, ((peers_as_heard rfl hRun (snapshot_of s)).2 (laptop.listed 0)).mp ?_⟩
  rw [hTable]
  exact List.mem_cons_self

/-- Everybody in its table was announced by a host, under the listed
id and name. -/
theorem peers_announced_laptop : ∃ past p s, Run (lan .linux) desktop.run {} past p s ∧
    laptop.listed 0 ∈ s.table.peers ∧ ∀ peer ∈ s.table.peers, peer.deviceId ≠ desktop.ownDeviceId ∧
      ∃ host, .env (.announces host) ∈ past ∧ peer = host.listed peer.lastSeen := by
  obtain ⟨past, next, s, hRun, hTable, hHonest⟩ := exists_heard
  refine ⟨past, _, s, hRun, ?_, peers_announced rfl rfl hRun hHonest (snapshot_of s)⟩
  rw [hTable]
  exact List.mem_cons_self

end NoCapKVM.Discovery
