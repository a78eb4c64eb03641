import NoCapKVM.App.InputPump
import NoCapKVM.Discovery.Identity
import NoCapKVM.Discovery.PeerTable

/-! `app/ui.cpp` and the frame loop of `app/main.cpp`: which screen is drawn, and which of the
network's parts run meanwhile, from one start of the program to the next. -/
namespace NoCapKVM.App.Screens

/-- A `TcpClient` as it is constructed. -/
structure Dial where
  peerIp : String
  peerPort : UInt16

/-- The parts of `AppState` that come and go with the screens. A server is
known by the port it is bound to. -/
structure Shell where
  screen : Screen := .roleSelect
  previousScreen : Screen := .roleSelect
  role : Discovery.Role := .master
  deviceId : UInt64
  hostname : List UInt8
  announcer : Option Discovery.Announcer := none
  listener : Option Discovery.Listener := none
  tcpServer : Option UInt16 := none
  tcpClient : Option Dial := none
  files : Discovery.IdentityFiles

/-- The button that is pressed in a frame. -/
inductive Click where
  | master
  | slave
  | manageKnownDevices
  | arrangeScreens
  | back
  | connect (row : Discovery.PeerInfo)
  | disconnect
  | forget

/-- A frame. `chosen` is the Master that `pump_auto_connect` finds,
and `connected` whether the client's status is that of the button.
`bound` is the port of a server that is started, and `saved` whether a
file can be written. -/
structure Frame where
  visible : Bool := true
  chosen : Option Discovery.PeerInfo := none
  connectionTab : Bool := true
  connected : Bool := false
  click : Option Click := none
  bound : UInt16 := 0
  saved : Bool := true

namespace Shell

def startDiscovery (s : Shell) (role : Discovery.Role) (bound : UInt16) (saved : Bool) : Shell :=
  let files := { s.files with lastRole := Discovery.saveLastRole role saved s.files.lastRole }
  let tcpPort := if role = .master then bound else 0
  { s with
    role := role
    files := files
    tcpServer := if role = .master then some bound else s.tcpServer
    announcer := some ⟨s.deviceId, role, tcpPort, s.hostname⟩
    listener := some ⟨s.deviceId⟩
    screen := .discovery }

def pumpAutoConnect (s : Shell) (chosen : Option Discovery.PeerInfo) : Shell :=
  if s.role ≠ .slave ∨ s.listener.isNone then s
  else
    match chosen with
    | some peer => { s with tcpClient := some ⟨peer.ipAddress, peer.tcpPort⟩ }
    | none => s

def drawRoleSelect (s : Shell) (f : Frame) : Shell :=
  match f.click with
  | some .master => s.startDiscovery .master f.bound f.saved
  | some .slave => s.startDiscovery .slave 0 f.saved
  | some .manageKnownDevices => { s with previousScreen := .roleSelect, screen := .manageDevices }
  | _ => s

/-- The buttons of the connection tab. -/
def pressConnection (s : Shell) (f : Frame) : Shell :=
  match f.click with
  | some (.connect row) =>
      if s.role = .slave ∧ row.role = .master ∧ row.tcpPort ≠ 0 then
        { s with tcpClient := some ⟨row.ipAddress, row.tcpPort⟩ }
      else s
  | some .disconnect =>
      if s.role = .slave ∧ s.tcpClient.isSome ∧ f.connected then { s with tcpClient := none } else s
  | _ => s

/-- `state.listener` is dereferenced, whatever it holds. -/
def drawConnectionTab (s : Shell) (f : Frame) : Option Shell :=
  s.listener.map fun _ => s.pressConnection f

/-- The buttons below the tabs. -/
def pressDiscovery (s : Shell) (f : Frame) : Shell :=
  match f.click with
  | some .manageKnownDevices => { s with previousScreen := .discovery, screen := .manageDevices }
  | some .arrangeScreens =>
      if s.role = .master then { s with previousScreen := .discovery, screen := .arrangement } else s
  | some .back =>
      { s with announcer := none, listener := none, tcpServer := none, tcpClient := none, screen := .roleSelect }
  | _ => s

def drawDiscovery (s : Shell) (f : Frame) : Option Shell :=
  (if f.connectionTab then s.drawConnectionTab f else some s).map fun s => s.pressDiscovery f

/-- A device that is forgotten loses its connection. -/
def drawManageDevices (s : Shell) (f : Frame) : Shell :=
  match f.click with
  | some .forget => if s.tcpClient.isSome ∧ f.connected then { s with tcpClient := none } else s
  | some .back => { s with screen := s.previousScreen }
  | _ => s

def drawArrangement (s : Shell) (f : Frame) : Shell :=
  match f.click with
  | some .back => { s with screen := s.previousScreen }
  | _ => s

def draw (s : Shell) (f : Frame) : Option Shell :=
  match s.screen with
  | .roleSelect => some (s.drawRoleSelect f)
  | .discovery => s.drawDiscovery f
  | .manageDevices => some (s.drawManageDevices f)
  | .arrangement => some (s.drawArrangement f)

/-- One round of the loop of `main`. Nothing is drawn while the
window is hidden. -/
def frame (s : Shell) (f : Frame) : Option Shell :=
  let s := s.pumpAutoConnect f.chosen
  if f.visible then s.draw f else some s

/-- What a start of the program finds besides its files. -/
structure Startup where
  high : UInt64
  low : UInt64
  hostname : List UInt8
  bound : UInt16
  saved : Bool := true

def resumeLastRoleIfAny (s : Shell) (x : Startup) : Shell :=
  match Discovery.getLastRole s.files.lastRole with
  | some role => s.startDiscovery role x.bound x.saved
  | none => s

/-- `main` up to its loop. -/
def boot (files : Discovery.IdentityFiles) (x : Startup) : Shell :=
  let id := Discovery.getOrCreateDeviceId (Discovery.generateDeviceId x.high x.low) x.saved files.deviceId
  Shell.resumeLastRoleIfAny { deviceId := id.1, hostname := x.hostname, files := { files with deviceId := id.2 } } x

/-- The program goes on, or is started anew. -/
inductive Event where
  | frame (f : Frame)
  | restart (x : Startup)

def step (s : Shell) : Event → Option Shell
  | .frame f => s.frame f
  | .restart x => some (boot s.files x)

def run (s : Shell) : List Event → Option Shell
  | [] => some s
  | e :: events => (s.step e).bind fun s => s.run events

/-- On the discovery screen, or on one that leads back to it. -/
def Discovering (s : Shell) : Prop :=
  s.screen = .discovery ∨ (s.screen = .manageDevices ∨ s.screen = .arrangement) ∧ s.previousScreen = .discovery

/-- While discovery is on, the machine announces itself as what it runs, and
does not list itself. Otherwise nothing runs. -/
structure Consistent (s : Shell) : Prop where
  running : s.Discovering → s.listener = some ⟨s.deviceId⟩ ∧
    s.announcer = some ⟨s.deviceId, s.role, s.tcpServer.getD 0, s.hostname⟩ ∧
    (s.tcpServer.isSome ↔ s.role = .master) ∧ (s.tcpClient.isSome → s.role = .slave)
  idle : ¬ s.Discovering → s.listener = none ∧ s.announcer = none ∧ s.tcpServer = none ∧ s.tcpClient = none
  arranging : s.screen = .arrangement → s.role = .master ∧ s.previousScreen = .discovery
  managing : s.screen = .manageDevices → s.previousScreen = .roleSelect ∨ s.previousScreen = .discovery

variable {s s' : Shell}

/-- On the discovery screen discovery is on. -/
theorem discovering_of_screen (h : s.screen = .discovery) : s.Discovering :=
  .inl h

theorem not_discovering_of_roleSelect (h : s.screen = .roleSelect) : ¬ s.Discovering := by
  simp [Discovering, h]

/-- At the choice of a role nothing runs yet. -/
theorem consistent_of_idle (hScreen : s.screen = .roleSelect)
    (h : s.listener = none ∧ s.announcer = none ∧ s.tcpServer = none ∧ s.tcpClient = none) : s.Consistent where
  running hNow := absurd hNow (not_discovering_of_roleSelect hScreen)
  idle _ := h
  arranging hOther := by simp [hScreen] at hOther
  managing hOther := by simp [hScreen] at hOther

/-- Discovery is begun where nothing runs. -/
theorem Consistent.startDiscovery (h : s.Consistent) (hIdle : ¬ s.Discovering) (role : Discovery.Role) (bound : UInt16)
    (saved : Bool) : (s.startDiscovery role bound saved).Consistent := by
  obtain ⟨-, -, hServer, hClient⟩ := h.idle hIdle
  refine ⟨fun _ => ?_, fun hNot => absurd (discovering_of_screen rfl) hNot, nofun, nofun⟩
  cases role <;> simp [Shell.startDiscovery, hServer, hClient]

/-- Replacing the client keeps everything consistent. -/
theorem Consistent.pumpAutoConnect (h : s.Consistent) (chosen : Option Discovery.PeerInfo) :
    (s.pumpAutoConnect chosen).Consistent := by
  unfold Shell.pumpAutoConnect
  split
  · exact h
  · rename_i hSlave
    obtain ⟨hRole, hListener⟩ := not_or.mp hSlave
    cases chosen with
    | none => exact h
    | some peer =>
        have hDiscovering : s.Discovering := by
          by_contra hNot
          simp [(h.idle hNot).1] at hListener
        obtain ⟨hOn, hAnnounces, hServer, -⟩ := h.running hDiscovering
        exact ⟨fun _ => ⟨hOn, hAnnounces, hServer, fun _ => not_not.mp hRole⟩,
          fun hNot => absurd hDiscovering hNot, h.arranging, h.managing⟩

/-- A client that is gone is missed on no screen. -/
theorem Consistent.dropClient (h : s.Consistent) : ({ s with tcpClient := none } : Shell).Consistent where
  running hOn := by
    obtain ⟨hListener, hAnnounces, hServer, -⟩ := h.running hOn
    exact ⟨hListener, hAnnounces, hServer, nofun⟩
  idle hNot := by
    obtain ⟨hListener, hAnnounces, hServer, -⟩ := h.idle hNot
    exact ⟨hListener, hAnnounces, hServer, rfl⟩
  arranging := h.arranging
  managing := h.managing

/-- Another screen of the same kind. -/
theorem Consistent.show (h : s.Consistent) {screen previous : Screen}
    (hSame : ({ s with screen := screen, previousScreen := previous } : Shell).Discovering ↔ s.Discovering)
    (hArranging : screen = .arrangement → s.role = .master ∧ previous = .discovery)
    (hManaging : screen = .manageDevices → previous = .roleSelect ∨ previous = .discovery) :
    ({ s with screen := screen, previousScreen := previous } : Shell).Consistent where
  running hOn := h.running (hSame.mp hOn)
  idle hNot := h.idle fun hOn => hNot (hSame.mpr hOn)
  arranging := hArranging
  managing := hManaging

/-- From both screens that lead here one also leads back. -/
theorem Consistent.back (h : s.Consistent) (hOn : s.screen = .manageDevices ∨ s.screen = .arrangement) :
    ({ s with screen := s.previousScreen } : Shell).Consistent := by
  have hPrevious : s.previousScreen = .roleSelect ∨ s.previousScreen = .discovery := by
    rcases hOn with hManaging | hArranging
    · exact h.managing hManaging
    · exact .inr (h.arranging hArranging).2
  refine h.show ?_ ?_ ?_
  · rcases hOn with hScreen | hScreen <;> rcases hPrevious with hBack | hBack <;> simp [Discovering, hScreen, hBack]
  · rcases hPrevious with hBack | hBack <;> simp [hBack]
  · rcases hPrevious with hBack | hBack <;> simp [hBack]

/-- The choice of a role starts listener, announcer and, for a
Master, the server. -/
theorem Consistent.drawRoleSelect (h : s.Consistent) (hOn : s.screen = .roleSelect) (f : Frame) :
    (s.drawRoleSelect f).Consistent := by
  have hIdle := not_discovering_of_roleSelect hOn
  unfold Shell.drawRoleSelect
  split
  · exact h.startDiscovery hIdle _ _ _
  · exact h.startDiscovery hIdle _ _ _
  · exact h.show (by simp [Discovering, hOn]) nofun fun _ => .inl rfl
  · exact h

/-- Managing the devices starts and stops nothing. -/
theorem Consistent.drawManageDevices (h : s.Consistent) (hOn : s.screen = .manageDevices) (f : Frame) :
    (s.drawManageDevices f).Consistent := by
  unfold Shell.drawManageDevices
  split
  · split
    · exact h.dropClient
    · exact h
  · exact h.back (.inl hOn)
  · exact h

/-- Nor does arranging them. -/
theorem Consistent.drawArrangement (h : s.Consistent) (hOn : s.screen = .arrangement) (f : Frame) :
    (s.drawArrangement f).Consistent := by
  unfold Shell.drawArrangement
  split
  · exact h.back (.inr hOn)
  · exact h

/-- The tab leaves the screen as it is. -/
theorem Consistent.pressConnection (h : s.Consistent) (hOn : s.screen = .discovery) (f : Frame) :
    (s.pressConnection f).Consistent ∧ (s.pressConnection f).screen = .discovery := by
  have hDiscovering := discovering_of_screen hOn
  obtain ⟨hListener, hAnnounces, hServer, -⟩ := h.running hDiscovering
  unfold Shell.pressConnection
  split
  · split
    · rename_i hSlave
      exact ⟨⟨fun _ => ⟨hListener, hAnnounces, hServer, fun _ => hSlave.1⟩,
        fun hNot => absurd hDiscovering hNot, h.arranging, h.managing⟩, hOn⟩
    · exact ⟨h, hOn⟩
  · split
    · exact ⟨h.dropClient, hOn⟩
    · exact ⟨h, hOn⟩
  · exact ⟨h, hOn⟩

/-- The way back to the choice of a role stops what was started. -/
theorem Consistent.pressDiscovery (h : s.Consistent) (hOn : s.screen = .discovery) (f : Frame) :
    (s.pressDiscovery f).Consistent := by
  unfold Shell.pressDiscovery
  split
  · exact h.show (by simp [Discovering, hOn]) nofun fun _ => .inr rfl
  · split
    · rename_i hMaster
      exact h.show (by simp [Discovering, hOn]) (fun _ => ⟨hMaster, rfl⟩) nofun
    · exact h
  · exact consistent_of_idle rfl ⟨rfl, rfl, rfl, rfl⟩
  · exact h

/-- The listener is there. -/
theorem Consistent.drawDiscovery (h : s.Consistent) (hOn : s.screen = .discovery) (f : Frame) :
    ∃ s', s.drawDiscovery f = some s' ∧ s'.Consistent := by
  unfold Shell.drawDiscovery
  split
  · obtain ⟨hTab, hTabOn⟩ := h.pressConnection hOn f
    refine ⟨_, ?_, hTab.pressDiscovery hTabOn f⟩
    rw [drawConnectionTab, (h.running (discovering_of_screen hOn)).1]
    rfl
  · exact ⟨_, rfl, h.pressDiscovery hOn f⟩

/-- Whatever screen is drawn, what it dereferences is there, and it leaves
everything consistent. -/
theorem Consistent.draw (h : s.Consistent) (f : Frame) : ∃ s', s.draw f = some s' ∧ s'.Consistent := by
  unfold Shell.draw
  split
  · exact ⟨_, rfl, h.drawRoleSelect ‹_› f⟩
  · exact h.drawDiscovery ‹_› f
  · exact ⟨_, rfl, h.drawManageDevices ‹_› f⟩
  · exact ⟨_, rfl, h.drawArrangement ‹_› f⟩

/-- So does a whole frame, also of a hidden window. -/
theorem Consistent.frame (h : s.Consistent) (f : Frame) : ∃ s', s.frame f = some s' ∧ s'.Consistent := by
  have hPumped := h.pumpAutoConnect f.chosen
  unfold Shell.frame
  split
  · exact hPumped.draw f
  · exact ⟨_, rfl, hPumped⟩

/-- A start that resumes its role starts what the role needs. -/
theorem Consistent.resumeLastRoleIfAny (h : s.Consistent) (hIdle : ¬ s.Discovering) (x : Startup) :
    (s.resumeLastRoleIfAny x).Consistent := by
  unfold Shell.resumeLastRoleIfAny
  split
  · exact h.startDiscovery hIdle _ _ _
  · exact h

/-- Every start of the program leads to a consistent state. -/
theorem consistent_boot (files : Discovery.IdentityFiles) (x : Startup) : (boot files x).Consistent := by
  refine Consistent.resumeLastRoleIfAny ?_ (not_discovering_of_roleSelect rfl) x
  exact consistent_of_idle rfl ⟨rfl, rfl, rfl, rfl⟩

/-- A frame or a restart keeps everything consistent. -/
theorem Consistent.step (h : s.Consistent) (e : Event) : ∃ s', s.step e = some s' ∧ s'.Consistent := by
  cases e with
  | frame f => exact h.frame f
  | restart x => exact ⟨_, rfl, consistent_boot s.files x⟩

/-- So does every run, and it never dereferences what is not there. -/
theorem Consistent.run (h : s.Consistent) (events : List Event) : ∃ s', s.run events = some s' ∧ s'.Consistent := by
  induction events generalizing s with
  | nil => exact ⟨s, rfl, h⟩
  | cons e events ih =>
      obtain ⟨t, hStep, hT⟩ := h.step e
      obtain ⟨s', hRun, hS'⟩ := ih hT
      refine ⟨s', ?_, hS'⟩
      rw [Shell.run, hStep, Option.bind_some, hRun]

/-- However often the program is started, and whatever is pressed, no
screen looks for a listener that is not there, and what runs is what
belongs to the screen. -/
theorem screens_consistent (files : Discovery.IdentityFiles) (x : Startup) (events : List Event) :
    ∃ s, (boot files x).run events = some s ∧ s.Consistent :=
  (consistent_boot files x).run events

/-- No role is chosen. -/
structure Keeps (s s' : Shell) : Prop where
  deviceId : s'.deviceId = s.deviceId
  role : s'.role = s.role
  files : s'.files = s.files
  listener : s.listener = none → s'.listener = none

theorem Keeps.refl (s : Shell) : Keeps s s :=
  ⟨rfl, rfl, rfl, id⟩

/-- What keeps the role and the files keeps them one after the other. -/
theorem Keeps.trans {s'' : Shell} (h : Keeps s s') (h' : Keeps s' s'') : Keeps s s'' where
  deviceId := h'.deviceId.trans h.deviceId
  role := h'.role.trans h.role
  files := h'.files.trans h.files
  listener hNone := h'.listener (h.listener hNone)

/-- The pump for automatic connections writes no file. -/
theorem keeps_pumpAutoConnect (s : Shell) (chosen : Option Discovery.PeerInfo) :
    Keeps s (s.pumpAutoConnect chosen) := by
  unfold Shell.pumpAutoConnect
  split
  · exact .refl s
  · cases chosen with
    | none => exact .refl s
    | some peer => exact ⟨rfl, rfl, rfl, id⟩

/-- The buttons of the connection tab choose no role. -/
theorem keeps_pressConnection (s : Shell) (f : Frame) : Keeps s (s.pressConnection f) := by
  unfold Shell.pressConnection
  split
  · split
    · exact ⟨rfl, rfl, rfl, id⟩
    · exact .refl s
  · split
    · exact ⟨rfl, rfl, rfl, id⟩
    · exact .refl s
  · exact .refl s

theorem keeps_pressDiscovery (s : Shell) (f : Frame) : Keeps s (s.pressDiscovery f) := by
  unfold Shell.pressDiscovery
  split
  · exact ⟨rfl, rfl, rfl, id⟩
  · split
    · exact ⟨rfl, rfl, rfl, id⟩
    · exact .refl s
  · exact ⟨rfl, rfl, rfl, fun _ => rfl⟩
  · exact .refl s

/-- Nor does anything else on the discovery screen. -/
theorem keeps_drawDiscovery {f : Frame} (h : s.drawDiscovery f = some s') : Keeps s s' := by
  obtain ⟨t, hTab, rfl⟩ := Option.map_eq_some_iff.mp h
  refine .trans ?_ (keeps_pressDiscovery t f)
  split at hTab
  · obtain ⟨_, -, rfl⟩ := Option.map_eq_some_iff.mp hTab
    exact keeps_pressConnection s f
  · obtain rfl := Option.some.inj hTab
    exact .refl s

/-- Forgetting a device is no matter of the role. -/
theorem keeps_drawManageDevices (s : Shell) (f : Frame) : Keeps s (s.drawManageDevices f) := by
  unfold Shell.drawManageDevices
  split
  · split
    · exact ⟨rfl, rfl, rfl, id⟩
    · exact .refl s
  · exact ⟨rfl, rfl, rfl, id⟩
  · exact .refl s

theorem keeps_drawArrangement (s : Shell) (f : Frame) : Keeps s (s.drawArrangement f) := by
  unfold Shell.drawArrangement
  split
  · exact ⟨rfl, rfl, rfl, id⟩
  · exact .refl s

/-- A role is chosen on the first screen only. -/
theorem draw_cases {f : Frame} (h : s.draw f = some s') :
    Keeps s s' ∨ ∃ role bound, s' = s.startDiscovery role bound f.saved := by
  unfold Shell.draw at h
  split at h
  · obtain rfl := Option.some.inj h
    unfold Shell.drawRoleSelect
    split
    · exact .inr ⟨.master, f.bound, rfl⟩
    · exact .inr ⟨.slave, 0, rfl⟩
    · exact .inl ⟨rfl, rfl, rfl, id⟩
    · exact .inl (.refl s)
  · exact .inl (keeps_drawDiscovery h)
  · obtain rfl := Option.some.inj h
    exact .inl (keeps_drawManageDevices s f)
  · obtain rfl := Option.some.inj h
    exact .inl (keeps_drawArrangement s f)

/-- The files hold the id and the role. Without a role in its file,
none was chosen. -/
structure Saved (s : Shell) : Prop where
  deviceId : s.files.deviceId.bind Discovery.readDeviceId = some s.deviceId
  role : Discovery.getLastRole s.files.lastRole = some s.role ∨
    Discovery.getLastRole s.files.lastRole = none ∧ s.role = .master ∧ s.listener = none

/-- Where role and files are kept, what was saved stays saved. -/
theorem Saved.keeps (h : s.Saved) (hKeeps : Keeps s s') : s'.Saved where
  deviceId := by
    rw [hKeeps.files, hKeeps.deviceId]
    exact h.deviceId
  role := by
    rw [hKeeps.files, hKeeps.role]
    exact h.role.imp_right fun ⟨hFile, hRole, hNone⟩ => ⟨hFile, hRole, hKeeps.listener hNone⟩

/-- A chosen role is written to its file at once. -/
theorem saved_startDiscovery (h : s.files.deviceId.bind Discovery.readDeviceId = some s.deviceId)
    (role : Discovery.Role) (bound : UInt16) : (s.startDiscovery role bound true).Saved where
  deviceId := h
  role := .inl (Discovery.getLastRole_saveLastRole role s.files.lastRole)

/-- A start that resumes a role has found it in its file. -/
theorem saved_resumed (h : s.files.deviceId.bind Discovery.readDeviceId = some s.deviceId) (hRole : s.role = .master)
    (hNone : s.listener = none) {x : Startup} (hSaved : x.saved = true) : (s.resumeLastRoleIfAny x).Saved := by
  unfold Shell.resumeLastRoleIfAny
  rw [hSaved]
  split
  · exact saved_startDiscovery h _ _
  · rename_i hFile
    exact ⟨h, .inr ⟨hFile, hRole, hNone⟩⟩

/-- A start saves the device id if the file has none. -/
theorem saved_boot (files : Discovery.IdentityFiles) {x : Startup} (hSaved : x.saved = true) :
    (boot files x).Saved := by
  refine saved_resumed ?_ rfl rfl hSaved
  rw [hSaved]
  exact Discovery.getOrCreateDeviceId_kept _ files.deviceId

def Event.saved : Event → Bool
  | .frame f => f.saved
  | .restart x => x.saved

/-- A frame that can write its files saves the role that it chooses. -/
theorem Saved.frame (h : s.Saved) {f : Frame} (hSaved : f.saved = true) (hFrame : s.frame f = some s') : s'.Saved := by
  have hPumped := h.keeps (keeps_pumpAutoConnect s f.chosen)
  unfold Shell.frame at hFrame
  split at hFrame
  · rcases draw_cases hFrame with hKeeps | ⟨role, bound, rfl⟩
    · exact hPumped.keeps hKeeps
    · rw [hSaved]
      exact saved_startDiscovery hPumped.deviceId role bound
  · obtain rfl := Option.some.inj hFrame
    exact hPumped

/-- Resuming a role leaves the id as it is. -/
theorem resumed_deviceId (s : Shell) (x : Startup) : (s.resumeLastRoleIfAny x).deviceId = s.deviceId := by
  unfold Shell.resumeLastRoleIfAny
  split <;> rfl

/-- The id that is in the file stays. -/
theorem Saved.boot_deviceId (h : s.Saved) (x : Startup) : (boot s.files x).deviceId = s.deviceId := by
  rw [boot, resumed_deviceId, Discovery.getOrCreateDeviceId_found h.deviceId]

/-- The role that is in the file is taken up again. -/
theorem Saved.boot_role (h : s.Saved) (x : Startup) : (boot s.files x).role = s.role := by
  rw [boot, Shell.resumeLastRoleIfAny]
  rcases h.role with hFile | ⟨hFile, hRole, -⟩
  · rw [hFile]
    rfl
  · rw [hFile, hRole]

/-- A device that had chosen a role starts on the discovery screen. -/
theorem Saved.boot_screen (h : s.Saved) (hListener : s.listener ≠ none) (x : Startup) :
    (boot s.files x).screen = .discovery := by
  rw [boot, Shell.resumeLastRoleIfAny]
  rcases h.role with hFile | ⟨-, -, hNone⟩
  · rw [hFile]
    rfl
  · exact absurd hNone hListener

/-- No frame changes the id. -/
theorem frame_deviceId {f : Frame} (h : s.frame f = some s') : s'.deviceId = s.deviceId := by
  have hPumped := (keeps_pumpAutoConnect s f.chosen).deviceId
  unfold Shell.frame at h
  split at h
  · rcases draw_cases h with hKeeps | ⟨role, bound, rfl⟩
    · exact hKeeps.deviceId.trans hPumped
    · exact hPumped
  · obtain rfl := Option.some.inj h
    exact hPumped

/-- So a frame or a restart keeps the id, and what is saved. -/
theorem Saved.step (h : s.Saved) {e : Event} (hSaved : e.saved = true) (hStep : s.step e = some s') :
    s'.Saved ∧ s'.deviceId = s.deviceId := by
  cases e with
  | frame f => exact ⟨h.frame hSaved hStep, frame_deviceId hStep⟩
  | restart x =>
      obtain rfl := Option.some.inj hStep
      exact ⟨saved_boot s.files hSaved, h.boot_deviceId x⟩

/-- And so does every run with restarts. -/
theorem Saved.run (h : s.Saved) {events : List Event} (hSaved : ∀ e ∈ events, e.saved = true)
    (hRun : s.run events = some s') : s'.Saved ∧ s'.deviceId = s.deviceId := by
  induction events generalizing s with
  | nil =>
      obtain rfl := Option.some.inj hRun
      exact ⟨h, rfl⟩
  | cons e events ih =>
      obtain ⟨t, hStep, hRest⟩ := Option.bind_eq_some_iff.mp hRun
      obtain ⟨hT, hSame⟩ := h.step (hSaved e List.mem_cons_self) hStep
      obtain ⟨hLast, hLater⟩ := ih hT (fun e he => hSaved e (List.mem_cons_of_mem _ he)) hRest
      exact ⟨hLast, hLater.trans hSame⟩

/-- While the files can be written, the device keeps its first id through
all restarts, and each restart takes up the last role, at work if the
program was. -/
theorem identity_survives {files : Discovery.IdentityFiles} {x : Startup} {events : List Event}
    (hStart : x.saved = true) (hSaved : ∀ e ∈ events, e.saved = true) (hRun : (boot files x).run events = some s) :
    s.deviceId = (boot files x).deviceId ∧ ∀ y, (boot s.files y).deviceId = s.deviceId ∧
      (boot s.files y).role = s.role ∧ (s.Discovering → (boot s.files y).screen = .discovery) := by
  obtain ⟨hKept, hSame⟩ := (saved_boot files hStart).run hSaved hRun
  obtain ⟨_, hReached, hConsistent⟩ := screens_consistent files x events
  obtain rfl := Option.some.inj (hReached.symm.trans hRun)
  refine ⟨hSame, fun y => ⟨hKept.boot_deviceId y, hKept.boot_role y, fun hOn => hKept.boot_screen ?_ y⟩⟩
  rw [(hConsistent.running hOn).1]
  nofun

/-- A device that is started for the first time. -/
def firstStart : Startup where
  high := 7
  low := 9
  hostname := []
  bound := 0

/-- The user makes it a Slave, and it is started again. -/
def slaveChosen : List Event := [.frame { click := some .slave }, .restart { firstStart with low := 10 }]

/-- A device that has become a Slave is one again after every later start,
under the id of the first. -/
theorem identity_survives_restart : ∃ s, (boot {} firstStart).run slaveChosen = some s ∧
    s.deviceId = 0x700000009 ∧ s.role = .slave ∧ ∀ y, (boot s.files y).role = .slave := by
  obtain ⟨s, hRun, -⟩ := screens_consistent {} firstStart slaveChosen
  have hRole : ((boot {} firstStart).run slaveChosen).map Shell.role = some .slave := by decide +kernel
  rw [hRun] at hRole
  obtain ⟨hId, hBoots⟩ := identity_survives rfl (by decide) hRun
  have hSlave : s.role = .slave := Option.some.inj hRole
  refine ⟨s, hRun, hId.trans (by decide +kernel), hSlave, fun y => ?_⟩
  rw [(hBoots y).2.1, hSlave]

end Shell
end NoCapKVM.App.Screens
