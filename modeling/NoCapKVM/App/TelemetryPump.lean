import Mathlib.Data.List.Destutter
import NoCapKVM.Discovery.Announce
import NoCapKVM.Discovery.ConnectionInfo
import NoCapKVM.Text.IStream

/-! `telemetry_pump.cpp`, `reconnect_tracker.h` and the event lines of `format.cpp`: what the log
says of the connection. -/
namespace NoCapKVM.App.TelemetryPump

open Discovery Text.IStream

structure Event where
  key : String
  message : String

def quote : Char := Char.ofNat 34

def backslash : Char := Char.ofNat 92

def escape (message : List Char) : List Char :=
  message.flatMap fun c => if c = quote ∨ c = backslash then [backslash, c] else [c]

def keyPrefix : List Char := "event=".toList

def messagePrefix : List Char := " message=".toList ++ [quote]

def formatEventLine (e : Event) : List Char :=
  keyPrefix ++ (e.key.toList ++ (messagePrefix ++ (escape e.message.toList ++ [quote])))

/-- Up to the closing quote. -/
def unescape : List Char → List Char
  | [] => []
  | [c] => if c = quote ∨ c = backslash then [] else [c]
  | c :: d :: rest =>
      if c = quote then []
      else if c = backslash then d :: unescape rest
      else c :: unescape (d :: rest)

/-- The event of a line. -/
def readEventLine (line : List Char) : Event :=
  let rest := line.drop keyPrefix.length
  { key := String.ofList (rest.takeWhile (· ≠ ' '))
    message := String.ofList (unescape ((rest.dropWhile (· ≠ ' ')).drop messagePrefix.length)) }

/-- A character without a special meaning stands for itself. -/
theorem unescape_cons {c : Char} (h : ¬ (c = quote ∨ c = backslash)) (rest : List Char) :
    unescape (c :: rest) = c :: unescape rest := by
  obtain ⟨hQuote, hBackslash⟩ := not_or.mp h
  cases rest with
  | nil => simp [unescape, hQuote, hBackslash]
  | cons d rest => simp [unescape, hQuote, hBackslash]

/-- An escaped message is read back up to its closing quote. -/
theorem unescape_escape (message : List Char) : unescape (escape message ++ [quote]) = message := by
  induction message with
  | nil => decide
  | cons c message ih =>
      unfold escape at ih ⊢
      rw [List.flatMap_cons, List.append_assoc]
      split
      · have hBackslash : backslash ≠ quote := by decide
        simp [unescape, hBackslash, ih]
      · rename_i hPlain
        rw [List.singleton_append, unescape_cons hPlain, ih]

/-- A line gives back its event, if no space in the key ends it too early. -/
theorem readEventLine_formatEventLine {e : Event} (hKey : ' ' ∉ e.key.toList) :
    readEventLine (formatEventLine e) = e := by
  have hWord : ∀ c ∈ e.key.toList, decide (c ≠ ' ') = true := fun c hMem =>
    decide_eq_true fun hBlank => hKey (hBlank ▸ hMem)
  have hStops : ∀ c ∈ (messagePrefix ++ (escape e.message.toList ++ [quote])).head?,
      decide (c ≠ ' ') = false := by
    intro c hHead
    obtain rfl : ' ' = c := Option.some.inj hHead
    rfl
  rw [readEventLine, formatEventLine, List.drop_left, takeWhile_append_before hWord hStops,
    dropWhile_append_before hWord hStops, List.drop_left, unescape_escape, String.ofList_toList,
    String.ofList_toList]

/-- The fields of `AppState` that the pump keeps. -/
structure Telemetry where
  lastWindowVisible : Bool := true
  lastConnectionState : ConnectionState := .idle
  everConnected : Bool := false
  reconnectCount : UInt32 := 0

/-- What a frame of the program finds: the states of the server and of the
client that are there. -/
structure Frame where
  windowVisible : Bool
  role : Discovery.Role
  tcpServer : Option ConnectionState
  tcpClient : Option ConnectionState

def Frame.connState (f : Frame) : ConnectionState :=
  match f.role with
  | .master => f.tcpServer.getD .idle
  | .slave => f.tcpClient.getD .idle

def stateName : ConnectionState → String
  | .idle => "idle"
  | .connecting => "connecting"
  | .pairing => "pairing"
  | .connected => "connected"
  | .failed => "failed"

def trackReconnect (wasConnected isConnected : Bool) (t : Telemetry) : Telemetry :=
  if wasConnected || !isConnected then t
  else
    { t with
      reconnectCount := if t.everConnected then t.reconnectCount + 1 else t.reconnectCount
      everConnected := true }

def windowEvents (t : Telemetry) (visible : Bool) : List Event :=
  if t.lastWindowVisible ≠ visible then
    [if visible then ⟨"window.shown", "window restored from tray"⟩
      else ⟨"window.hidden", "window hidden to tray"⟩]
  else []

def connectionEvents (last now : ConnectionState) : List Event :=
  if now ≠ last then
    [⟨if now = .connected then "connection.established"
      else if last = .connected then "connection.dropped"
      else "connection.state_changed", stateName now⟩]
  else []

def pumpTelemetry (t : Telemetry) (f : Frame) : Telemetry × List Event :=
  let tracked := trackReconnect (t.lastConnectionState = .connected) (f.connState = .connected) t
  ({ tracked with lastWindowVisible := f.windowVisible, lastConnectionState := f.connState },
    windowEvents t f.windowVisible ++ connectionEvents t.lastConnectionState f.connState)

/-- The events of a run, one frame after the other. -/
def run (t : Telemetry) : List Frame → Telemetry × List Event
  | [] => (t, [])
  | f :: frames =>
      let (next, events) := pumpTelemetry t f
      let (last, later) := run next frames
      (last, events ++ later)

/-- An event of the connection, by its key. -/
def IsConnection (e : Event) : Prop :=
  e.key ∈ ["connection.established", "connection.dropped", "connection.state_changed"]

instance (e : Event) : Decidable (IsConnection e) :=
  inferInstanceAs (Decidable (e.key ∈ ["connection.established", "connection.dropped", "connection.state_changed"]))

def countKey (key : String) (events : List Event) : Nat :=
  events.countP (·.key = key)

variable {t : Telemetry} {f : Frame} {events : List Event}

/-- What the pump logs about the window is nothing about the connection. -/
theorem filter_windowEvents (t : Telemetry) (visible : Bool) :
    (windowEvents t visible).filter IsConnection = [] := by
  unfold windowEvents
  split
  · cases visible <;> simp [IsConnection]
  · rfl

/-- What it logs about the connection is nothing else. -/
theorem filter_connectionEvents (last now : ConnectionState) :
    (connectionEvents last now).filter IsConnection = connectionEvents last now := by
  unfold connectionEvents
  split
  · rw [List.filter_eq_self]
    intro e hMem
    obtain rfl := List.mem_singleton.mp hMem
    refine decide_eq_true ?_
    unfold IsConnection
    dsimp only
    split_ifs <;> simp
  · rfl

/-- The states without their repetitions begin with the first state. -/
theorem destutter'_head (a : ConnectionState) (states : List ConnectionState) :
    states.destutter' (· ≠ ·) a = a :: (states.destutter' (· ≠ ·) a).tail := by
  induction states with
  | nil => rfl
  | cons b states ih =>
      rw [List.destutter'_cons]
      split
      · rfl
      · exact ih

/-- Without the lines about the window, the messages are the states that the
connection came to. -/
theorem states_run (t : Telemetry) (frames : List Frame) :
    ((run t frames).2.filter IsConnection).map Event.message =
      ((frames.map Frame.connState).destutter' (· ≠ ·) t.lastConnectionState).tail.map stateName := by
  induction frames generalizing t with
  | nil => rfl
  | cons f frames ih =>
      have hStep : ((pumpTelemetry t f).2.filter IsConnection).map Event.message =
          if f.connState ≠ t.lastConnectionState then [stateName f.connState] else [] := by
        rw [pumpTelemetry, List.filter_append, filter_windowEvents, filter_connectionEvents, List.nil_append,
          connectionEvents]
        split <;> rfl
      have hNext : (pumpTelemetry t f).1.lastConnectionState = f.connState := rfl
      have hRun : (run t (f :: frames)).2 = (pumpTelemetry t f).2 ++ (run (pumpTelemetry t f).1 frames).2 := rfl
      rw [hRun, List.filter_append, List.map_append, hStep, ih, hNext, List.map_cons, List.destutter'_cons]
      by_cases hSame : f.connState = t.lastConnectionState
      · simp [hSame]
      · rw [if_pos hSame, if_pos (Ne.symm hSame), List.tail_cons, destutter'_head f.connState]
        rfl

/-- What the counts of the lines have to do with the fields. -/
structure Tally (t : Telemetry) (events : List Event) : Prop where
  up : countKey "connection.established" events =
    countKey "connection.dropped" events + if t.lastConnectionState = .connected then 1 else 0
  ever : t.everConnected = true ↔ 0 < countKey "connection.established" events
  reconnects : t.reconnectCount = UInt32.ofNat (countKey "connection.established" events - 1)

/-- The lines of two parts of a log are counted together. -/
theorem countKey_append (key : String) (events later : List Event) :
    countKey key (events ++ later) = countKey key events + countKey key later :=
  List.countP_append

/-- The window's lines are not counted under a key of the connection. -/
theorem countKey_windowEvents {key : String} (hShown : "window.shown" ≠ key) (hHidden : "window.hidden" ≠ key)
    (t : Telemetry) (visible : Bool) : countKey key (windowEvents t visible) = 0 := by
  unfold windowEvents countKey
  split
  · cases visible <;> simp [hShown, hHidden]
  · rfl

/-- A connection is logged as established exactly when it comes up. -/
theorem countKey_established (last now : ConnectionState) :
    countKey "connection.established" (connectionEvents last now) =
      if last ≠ .connected ∧ now = .connected then 1 else 0 := by
  cases last <;> cases now <;> decide

/-- It is logged as dropped exactly when it goes down. -/
theorem countKey_dropped (last now : ConnectionState) :
    countKey "connection.dropped" (connectionEvents last now) =
      if last = .connected ∧ now ≠ .connected then 1 else 0 := by
  cases last <;> cases now <;> decide

/-- The window does not count. -/
theorem countKey_pump {key : String} (hShown : "window.shown" ≠ key) (hHidden : "window.hidden" ≠ key)
    (t : Telemetry) (f : Frame) (events : List Event) :
    countKey key (events ++ (pumpTelemetry t f).2) =
      countKey key events + countKey key (connectionEvents t.lastConnectionState f.connState) := by
  rw [pumpTelemetry, countKey_append, countKey_append, countKey_windowEvents hShown hHidden, Nat.zero_add]

/-- Where no connection comes up, the tracker counts nothing. -/
theorem trackReconnect_kept {was is : Prop} [Decidable was] [Decidable is] (h : ¬ (¬ was ∧ is)) (t : Telemetry) :
    trackReconnect was is t = t := by
  rw [trackReconnect, if_pos]
  by_cases hWas : was
  · simp [hWas]
  · have hIs : ¬ is := fun hIs => h ⟨hWas, hIs⟩
    simp [hIs]

/-- One that comes up counts as a reconnect, if it is not the first. -/
theorem trackReconnect_up {was is : Prop} [Decidable was] [Decidable is] (hWas : ¬ was) (hIs : is) (t : Telemetry) :
    trackReconnect was is t =
      { t with
        reconnectCount := if t.everConnected then t.reconnectCount + 1 else t.reconnectCount
        everConnected := true } := by
  rw [trackReconnect, if_neg]
  simp [hWas, hIs]

/-- The first time is no reconnection. -/
theorem Tally.count_up (h : Tally t events) :
    (if t.everConnected then t.reconnectCount + 1 else t.reconnectCount) =
      UInt32.ofNat (countKey "connection.established" events) := by
  cases hFirst : t.everConnected with
  | false =>
      have hNone : countKey "connection.established" events = 0 :=
        Nat.eq_zero_of_not_pos fun hSome => by simp [h.ever.mpr hSome] at hFirst
      rw [if_neg Bool.false_ne_true, h.reconnects, hNone]
  | true =>
      have hSome := h.ever.mp hFirst
      have hNext := UInt32.ofNat_add (countKey "connection.established" events - 1) 1
      rw [Nat.sub_add_cancel hSome] at hNext
      rw [if_pos rfl, h.reconnects, hNext]
      rfl

/-- A frame logs what it adds to the counts. -/
theorem Tally.pump (h : Tally t events) (f : Frame) :
    Tally (pumpTelemetry t f).1 (events ++ (pumpTelemetry t f).2) := by
  have hUp := countKey_pump (by decide : _ ≠ "connection.established") (by decide) t f events
  have hDown := countKey_pump (by decide : _ ≠ "connection.dropped") (by decide) t f events
  rw [countKey_established] at hUp
  rw [countKey_dropped] at hDown
  by_cases hNew : t.lastConnectionState ≠ .connected ∧ f.connState = .connected
  · obtain ⟨hWas, hIs⟩ := hNew
    rw [if_pos ⟨hWas, hIs⟩] at hUp
    rw [if_neg fun hLost => hWas hLost.1, Nat.add_zero] at hDown
    have hKept := h.up
    rw [if_neg hWas, Nat.add_zero] at hKept
    have hTracked := trackReconnect_up hWas hIs t
    constructor
    · rw [hUp, hDown, hKept, if_pos (show (pumpTelemetry t f).1.lastConnectionState = .connected from hIs)]
    · rw [hUp, pumpTelemetry, hTracked]
      exact iff_of_true rfl (Nat.succ_pos _)
    · rw [hUp, Nat.add_sub_cancel, pumpTelemetry, hTracked]
      exact h.count_up
  · rw [if_neg hNew, Nat.add_zero] at hUp
    have hTracked := trackReconnect_kept hNew t
    constructor
    · rw [hUp, hDown, h.up, show (pumpTelemetry t f).1.lastConnectionState = f.connState from rfl]
      by_cases hWas : t.lastConnectionState = .connected
      · by_cases hIs : f.connState = .connected
        · rw [if_pos hWas, if_neg fun hLost => hLost.2 hIs, if_pos hIs]
        · rw [if_pos hWas, if_pos ⟨hWas, hIs⟩, if_neg hIs]
      · have hIs : f.connState ≠ .connected := fun hIs => hNew ⟨hWas, hIs⟩
        rw [if_neg hWas, if_neg fun hLost => hWas hLost.1, if_neg hIs]
    · rw [hUp, pumpTelemetry, hTracked]
      exact h.ever
    · rw [hUp, pumpTelemetry, hTracked]
      exact h.reconnects

/-- So after any run the counts are those of the log. -/
theorem Tally.run (h : Tally t events) (frames : List Frame) :
    Tally (run t frames).1 (events ++ (run t frames).2) := by
  induction frames generalizing t events with
  | nil => simpa [TelemetryPump.run] using h
  | cons f frames ih =>
      have hRest := ih (h.pump f)
      rw [List.append_assoc] at hRest
      exact hRest

/-- No key that the pump logs contains a space. -/
theorem key_of_pump {e : Event} (h : e ∈ (pumpTelemetry t f).2) : ' ' ∉ e.key.toList := by
  rcases List.mem_append.mp h with hWindow | hConnection
  · unfold windowEvents at hWindow
    split at hWindow
    · obtain rfl := List.mem_singleton.mp hWindow
      cases f.windowVisible <;> decide
    · cases hWindow
  · unfold connectionEvents at hConnection
    split at hConnection
    · obtain rfl := List.mem_singleton.mp hConnection
      dsimp only
      split_ifs <;> decide
    · cases hConnection

/-- So decoding the lines of a run gives back its events. -/
theorem read_run (t : Telemetry) (frames : List Frame) :
    ((run t frames).2.map formatEventLine).map readEventLine = (run t frames).2 := by
  rw [List.map_map, List.map_congr_left (g := id), List.map_id]
  intro e hMem
  refine readEventLine_formatEventLine ?_
  induction frames generalizing t with
  | nil => cases hMem
  | cons f frames ih =>
      rcases List.mem_append.mp hMem with hNow | hLater
      · exact key_of_pump hNow
      · exact ih _ hLater

/-- The event lines give back the events, and their connection lines tell the
states that the connection came to, one after the other. It was lost as often
as it was established, but for the one that stands, and the count of
reconnections is that of the later ones. -/
theorem log_tells_connection (frames : List Frame) :
    let r := run {} frames
    let log := (r.2.map formatEventLine).map readEventLine
    log = r.2 ∧
      (log.filter IsConnection).map Event.message =
        ((frames.map Frame.connState).destutter' (· ≠ ·) .idle).tail.map stateName ∧
      countKey "connection.established" log =
        countKey "connection.dropped" log + (if r.1.lastConnectionState = .connected then 1 else 0) ∧
      r.1.reconnectCount = UInt32.ofNat (countKey "connection.established" log - 1) := by
  intro r log
  have hLog : log = r.2 := read_run {} frames
  have hStart : Tally {} [] := ⟨rfl, by decide, rfl⟩
  obtain ⟨hUp, -, hCount⟩ := hStart.run frames
  rw [hLog]
  exact ⟨rfl, states_run {} frames, hUp, hCount⟩

end NoCapKVM.App.TelemetryPump
