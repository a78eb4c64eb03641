import NoCapKVM.Discovery.UserSettings
import NoCapKVM.Text.WithinLine

/-! What `load_user_settings` makes of a file in which values are missing or wrong. -/
namespace NoCapKVM.Discovery

open Audio Text

/-- A value on a line, as text. -/
abbrev Word := { text : List Char // text ≠ [] ∧ ∀ c ∈ text, isSpace c = false }

def lineText (values : List Word) : List Char := values.flatMap fun value => ' ' :: value.val

/-- The number that the whole value is. -/
def wholeNumber (value : List Char) : Option Int :=
  match leadingNumber value with
  | some (negative, n, []) => some (if negative then -n else n)
  | _ => none

def numberAt (values : List Word) (i : Nat) : Option Int :=
  (values[i]?).bind fun value => wholeNumber value.val

def timeoutAt (values : List Word) (i : Nat) : Option Int :=
  (numberAt values i).filter fun value => 1 ≤ value ∧ value ≤ kMaxConnectionTimeoutSeconds

def flagOf (value : Int) : Option Bool :=
  if value = 0 then some false else if value = 1 then some true else none

def flagAt (values : List Word) (i : Nat) : Option Bool := (numberAt values i).bind flagOf

/-- A sample rate and the bit depth after it are one value. -/
def formatAt (values : List Word) (i : Nat) : Option AudioFormat :=
  match numberAt values i, numberAt values (i + 1) with
  | some sampleRate, some bitDepth =>
      if (sampleRate = 24000 ∨ sampleRate = 48000) ∧ (bitDepth = 8 ∨ bitDepth = 16) then
        some ⟨UInt32.ofNat sampleRate.toNat, UInt8.ofNat bitDepth.toNat⟩
      else none
  | _, _ => none

/-- The readers of `load_user_settings`, kept within one line. -/
def takeTimeout (state : LineState) : Option Int × LineState :=
  let (value, state) := scan intValue state
  (value.filter fun value => 1 ≤ value ∧ value ≤ kMaxConnectionTimeoutSeconds, state)

def takeFlag (state : LineState) : Option Bool × LineState :=
  let (value, state) := scan intValue state
  (value.bind flagOf, state)

def takeFormat (state : LineState) : Option AudioFormat × LineState :=
  let (sampleRate, state) := scan uint32Value state
  let (bitDepth, state) := scan uint32Value state
  (match sampleRate, bitDepth with
    | some sampleRate, some bitDepth =>
        if validFormat ⟨sampleRate, bitDepth.toUInt8⟩ then some ⟨sampleRate, bitDepth.toUInt8⟩ else none
    | _, _ => none, state)

def keys : List String := ["connection_timeout_s", "auto_connect_enabled", "slave_audio", "master_audio"]

/-- `readValues`, kept within one line. -/
def takeValues (key : String) (state : LineState) (settings : UserSettings) : UserSettings × LineState :=
  if key = "connection_timeout_s" then
    let (timeout, state) := takeTimeout state
    ({ settings with connectionTimeoutS := timeout.getD settings.connectionTimeoutS }, state)
  else if key = "auto_connect_enabled" then
    let (enabled, state) := takeFlag state
    ({ settings with autoConnectEnabled := enabled.getD settings.autoConnectEnabled }, state)
  else if key = "slave_audio" then
    let (enabled, state) := takeFlag state
    let (format, state) := takeFormat state
    ({ settings with
        slaveAudioSendEnabled := enabled.getD settings.slaveAudioSendEnabled,
        slaveAudioFormat := format.getD settings.slaveAudioFormat }, state)
  else
    let (overridden, state) := takeFlag state
    let (enabled, state) := takeFlag state
    let (format, state) := takeFormat state
    ({ settings with
        masterAudioOverridden := overridden.getD settings.masterAudioOverridden,
        masterAudioSendEnabled := enabled.getD settings.masterAudioSendEnabled,
        masterAudioFormat := format.getD settings.masterAudioFormat }, state)

/-- After its values a line goes on to the next one, unless what is left would
be taken for a key. -/
def GoesOn (state : LineState) : Prop := ∃ text, state = some text ∧ String.ofList (firstWord text) ∉ keys

instance : (state : LineState) → Decidable (GoesOn state)
  | none => isFalse fun ⟨_, hText, _⟩ => by cases hText
  | some text => decidable_of_iff (String.ofList (firstWord text) ∉ keys)
      ⟨fun h => ⟨text, rfl, h⟩, fun ⟨_, hText, h⟩ => Option.some.inj hText ▸ h⟩

/-- What is left of a line after its values. -/
def lineEnd (key : String) (values : List Word) : LineState := (takeValues key (some (lineText values)) {}).2

/-- No second key with text of its own stands on the line. -/
def OneKey (state : LineState) : Prop :=
  ∀ text, state = some text → String.ofList (firstWord text) ∈ keys → (afterWord text).dropWhile isSpace = []

/-- The loader knows four keys. -/
theorem eq_of_mem_keys {key : String} (h : key ∈ keys) :
    key = "connection_timeout_s" ∨ key = "auto_connect_enabled" ∨ key = "slave_audio" ∨ key = "master_audio" := by
  simpa only [keys, List.mem_cons, List.not_mem_nil, or_false] using h

section Readers

variable {rest : List Char} {state : LineState} {s : IStream}

/-- Reading a timeout stays within its line if what follows the line starts no
number. The reader then does what its counterpart on the line does. -/
theorem readTimeout_within (h : Within rest state s) (hRest : StartsNoNumber rest) (timeout : Int) :
    (readTimeout s timeout).1 = (takeTimeout state).1.getD timeout ∧
      Within rest (takeTimeout state).2 (readTimeout s timeout).2 := by
  obtain ⟨hValue, hWithin⟩ := h.number intValue hRest
  unfold readTimeout takeTimeout
  rw [int_eq]
  simp only [hValue]
  refine ⟨?_, hWithin⟩
  cases (scan intValue state).1 with
  | none => rfl
  | some value =>
    by_cases hRange : 1 ≤ value ∧ value ≤ kMaxConnectionTimeoutSeconds
    · simp [Option.filter, hRange]
    · simp [Option.filter, hRange]

/-- The same for a flag, whose default is the value that it replaces. -/
theorem readFlag_within (h : Within rest state s) (hRest : StartsNoNumber rest) (flag : Bool) :
    (readFlag s flag).1 = (takeFlag state).1.getD flag ∧ Within rest (takeFlag state).2 (readFlag s flag).2 := by
  obtain ⟨hValue, hWithin⟩ := h.number intValue hRest
  unfold readFlag takeFlag
  rw [int_eq]
  simp only [hValue]
  refine ⟨?_, hWithin⟩
  cases (scan intValue state).1 with
  | none => rfl
  | some value =>
    by_cases hZero : value = 0
    · simp [flagOf, hZero]
    · by_cases hOne : value = 1
      · simp [flagOf, hOne]
      · simp [flagOf, hZero, hOne]

/-- The same for a sample rate and a bit depth. -/
theorem readFormat_within (h : Within rest state s) (hRest : StartsNoNumber rest) (format : AudioFormat) :
    (readFormat s format).1 = (takeFormat state).1.getD format ∧
      Within rest (takeFormat state).2 (readFormat s format).2 := by
  obtain ⟨hRate, hWithin⟩ := h.number uint32Value hRest
  obtain ⟨hDepth, hWithin⟩ := hWithin.number uint32Value hRest
  unfold readFormat takeFormat
  rw [uint32_eq]
  simp only [hRate, hDepth]
  cases (scan uint32Value state).1 with
  | none => exact ⟨rfl, hWithin⟩
  | some sampleRate =>
    cases (scan uint32Value (scan uint32Value state).2).1 with
    | none => exact ⟨rfl, hWithin⟩
    | some bitDepth =>
      refine ⟨?_, hWithin⟩
      dsimp only
      split <;> rfl

/-- So the values of every key are read within their line. -/
theorem readValues_within {key : String} (hKey : key ∈ keys) (h : Within rest state s) (hRest : StartsNoNumber rest)
    (settings : UserSettings) :
    (readValues key s settings).1 = (takeValues key state settings).1 ∧
      Within rest (takeValues key state settings).2 (readValues key s settings).2 := by
  rcases eq_of_mem_keys hKey with rfl | rfl | rfl | rfl
  · obtain ⟨hTimeout, hWithin⟩ := readTimeout_within h hRest settings.connectionTimeoutS
    simp only [readValues, takeValues, if_true, hTimeout]
    exact ⟨trivial, hWithin⟩
  · obtain ⟨hEnabled, hWithin⟩ := readFlag_within h hRest settings.autoConnectEnabled
    simp only [readValues, takeValues, String.reduceEq, if_true, if_false, hEnabled]
    exact ⟨trivial, hWithin⟩
  · obtain ⟨hEnabled, hWithin⟩ := readFlag_within h hRest settings.slaveAudioSendEnabled
    obtain ⟨hFormat, hWithin⟩ := readFormat_within hWithin hRest settings.slaveAudioFormat
    simp only [readValues, takeValues, String.reduceEq, if_true, if_false, hEnabled, hFormat]
    exact ⟨trivial, hWithin⟩
  · obtain ⟨hOverridden, hWithin⟩ := readFlag_within h hRest settings.masterAudioOverridden
    obtain ⟨hEnabled, hWithin⟩ := readFlag_within hWithin hRest settings.masterAudioSendEnabled
    obtain ⟨hFormat, hWithin⟩ := readFormat_within hWithin hRest settings.masterAudioFormat
    simp only [readValues, takeValues, String.reduceEq, if_true, if_false, hOverridden, hEnabled, hFormat]
    exact ⟨trivial, hWithin⟩

end Readers

/-- On a line with nothing left a number is not found, and the stream has
failed from then on. -/
theorem scan_blank {α : Type} (convert : Bool → Nat → Option α) {text : List Char} (h : text.dropWhile isSpace = []) :
    scan convert (some text) = (none, none) := by
  have hNone : leadingNumber text = none := by
    unfold leadingNumber
    rw [h]
    rfl
  simp only [scan, hNone]

theorem scan_failed {α : Type} (convert : Bool → Nat → Option α) : scan convert none = (none, none) := rfl

/-- A key without values changes nothing and ends the reading. -/
theorem takeValues_blank (key : String) {text : List Char} (h : text.dropWhile isSpace = []) (settings : UserSettings) :
    takeValues key (some text) settings = (settings, none) := by
  simp only [takeValues, takeTimeout, takeFlag, takeFormat, scan_blank _ h, scan_failed]
  split
  · rfl
  · split
    · rfl
    · split <;> rfl

/-- The loader goes on from the next word, and the space before it
plays no part. -/
theorem loadSettings_congr {input input' : IStream} (h : input.word = input'.word) (settings : UserSettings) :
    loadSettings input settings = loadSettings input' settings := by
  cases hWord : input'.word with
  | mk key left =>
    cases key with
    | none =>
      rw [loadSettings_none (by rw [h, hWord]), loadSettings_none (by rw [hWord])]
    | some key =>
      rw [loadSettings_word (h.trans hWord), loadSettings_word hWord]

/-- A stream that has failed gives no further line. -/
theorem loadSettings_failed (left : List Char) (settings : UserSettings) :
    loadSettings ⟨left, true⟩ settings = settings :=
  loadSettings_none rfl settings

section Lines

variable {rest : List Char} {state : LineState} {s : IStream}

/-- What is left of a line is passed over, and the next line comes. -/
theorem loadSettings_goesOn (h : Within rest state s) (hGoesOn : GoesOn state) (settings : UserSettings) :
    loadSettings s settings = loadSettings ⟨rest, false⟩ settings := by
  obtain ⟨text, rfl, hKey⟩ := hGoesOn
  cases h with
  | reading hLine =>
    by_cases hBlank : text.dropWhile isSpace = []
    · refine loadSettings_congr ?_ settings
      calc
        _ = IStream.word ⟨['\n'] ++ rest, false⟩ := word_blank hBlank
        _ = _ := word_blank (by decide)
    · have hAfter : '\n' ∉ afterWord text := fun hMem => hLine ((suffix_afterWord text).mem hMem)
      simp only [keys, List.mem_cons, List.not_mem_nil, or_false, not_or] at hKey
      obtain ⟨hTimeout, hAuto, hSlave, hMaster⟩ := hKey
      rw [loadSettings_word (word_line hBlank)]
      simp only [readValues, hTimeout, hAuto, hSlave, hMaster, if_false, skipLine_line hAfter]

/-- After a failure, and at a key without values, the loop ends. -/
theorem loadSettings_stops (h : Within rest state s) (hRest : StartsNoNumber rest) (hOneKey : OneKey state)
    (hStops : ¬GoesOn state) (settings : UserSettings) : loadSettings s settings = settings := by
  cases h with
  | failed left => exact loadSettings_failed left settings
  | @reading text hLine =>
    have hKey : String.ofList (firstWord text) ∈ keys := by
      by_contra hNot
      exact hStops ⟨text, rfl, hNot⟩
    have hBlank : text.dropWhile isSpace ≠ [] := by
      intro hNil
      rw [firstWord, hNil] at hKey
      exact absurd hKey (by decide)
    have hAfter : '\n' ∉ afterWord text := fun hMem => hLine ((suffix_afterWord text).mem hMem)
    obtain ⟨hSettings, hWithin⟩ := readValues_within hKey (.reading hAfter) hRest settings
    rw [takeValues_blank _ (hOneKey text rfl hKey)] at hSettings hWithin
    rw [loadSettings_word (word_line hBlank), hSettings]
    cases hRead : (readValues (String.ofList (firstWord text)) ⟨afterWord text ++ '\n' :: rest, false⟩ settings).2 with
    | mk left fail =>
      rw [hRead] at hWithin
      cases hWithin
      exact loadSettings_failed left settings

/-- How much of a line is read does not depend on the settings so far. -/
theorem takeValues_end (key : String) (values : List Word) (settings : UserSettings) :
    (takeValues key (some (lineText values)) settings).2 = lineEnd key values := by
  unfold lineEnd takeValues
  split
  · rfl
  · split
    · rfl
    · split <;> rfl

theorem newline_notMem_lineText (values : List Word) : '\n' ∉ lineText values := by
  intro h
  obtain ⟨⟨text, hNe, hWord⟩, -, hMem⟩ := List.mem_flatMap.mp h
  rcases List.mem_cons.mp hMem with hSpace | hText
  · cases hSpace
  · exact absurd (hWord _ hText) (by decide)

/-- The key of a line ends before its values, also where it has none. -/
theorem isSpace_head_lineText (values : List Word) : ∀ c ∈ (lineText values ++ '\n' :: rest).head?, isSpace c := by
  cases values with
  | nil => simp [lineText, isSpace]
  | cons value values => simp [lineText, isSpace]

/-- A line as it stands in the file. -/
def settingsLine (key : String) (values : List Word) : List Char := key.toList ++ (lineText values ++ ['\n'])

/-- No line of the file starts like a number, so the values before it end with
their own line. -/
theorem startsNoNumber_settingsLine {key : String} (hKey : key ∈ keys) (values : List Word) (rest : List Char) :
    StartsNoNumber (settingsLine key values ++ rest) := by
  intro c hc
  rcases eq_of_mem_keys hKey with rfl | rfl | rfl | rfl
  · obtain rfl : 'c' = c := Option.some.inj hc
    decide
  · obtain rfl : 'a' = c := Option.some.inj hc
    decide
  · obtain rfl : 's' = c := Option.some.inj hc
    decide
  · obtain rfl : 'm' = c := Option.some.inj hc
    decide

/-- The loader takes the values of one line and goes on behind it, unless its
values have failed the stream. -/
theorem loadSettings_settingsLine {key : String} {values : List Word} (hKey : key ∈ keys)
    (hRest : StartsNoNumber rest) (hOneKey : OneKey (lineEnd key values)) (settings : UserSettings) :
    loadSettings ⟨settingsLine key values ++ rest, false⟩ settings =
      if GoesOn (lineEnd key values) then
        loadSettings ⟨rest, false⟩ (takeValues key (some (lineText values)) settings).1
      else (takeValues key (some (lineText values)) settings).1 := by
  have hChars : key.toList.all (!isSpace ·) = true ∧ key.toList ≠ [] := by
    rcases eq_of_mem_keys hKey with rfl | rfl | rfl | rfl <;> decide
  have hFile : settingsLine key values ++ rest = [] ++ (key.toList ++ (lineText values ++ '\n' :: rest)) := by
    simp [settingsLine]
  have hWord := IStream.word_before (fun _ hx => absurd hx List.not_mem_nil) (List.all_eq_true.mp hChars.1)
    hChars.2
    (@isSpace_head_lineText rest values)
  obtain ⟨hSettings, hWithin⟩ := readValues_within hKey (.reading (newline_notMem_lineText values)) hRest settings
  rw [takeValues_end] at hWithin
  rw [hFile, loadSettings_word hWord, String.ofList_toList, hSettings]
  split
  · rename_i hGoesOn
    exact loadSettings_goesOn hWithin hGoesOn _
  · rename_i hStops
    exact loadSettings_stops hWithin hRest hOneKey hStops _

end Lines

/-- What a number leaves of the text is an end of it. -/
theorem suffix_scan {α : Type} {convert : Bool → Nat → Option α} {text tail : List Char}
    (h : (scan convert (some text)).2 = some tail) : tail <:+ text := by
  cases hLead : leadingNumber text with
  | none =>
    simp only [scan, hLead] at h
    cases h
  | some lead =>
    obtain ⟨negative, n, left⟩ := lead
    cases hValue : convert negative n with
    | none =>
      simp only [scan, hLead, hValue] at h
      cases h
    | some value =>
      simp only [scan, hLead, hValue, Option.some.injEq] at h
      exact h ▸ suffix_leadingNumber hLead

/-- Behind the only word of a line nothing is left to be read. -/
theorem afterWord_word {word tail : List Char} (hWord : ∀ c ∈ word, isSpace c = false) (h : tail <:+ ' ' :: word) :
    afterWord tail = [] := by
  have hAll (cs : List Char) (hcs : cs <:+ word) : cs.dropWhile (!isSpace ·) = [] := by
    refine List.dropWhile_eq_nil_iff.mpr ?_
    intro c hc
    rw [hWord c (hcs.mem hc)]
    rfl
  rcases List.suffix_cons_iff.mp h with rfl | hSuffix
  · rw [afterWord, List.dropWhile_cons_of_pos (by decide)]
    exact hAll _ (List.dropWhile_suffix _)
  · exact hAll _ ((List.dropWhile_suffix _).trans hSuffix)

/-- One value leaves no room for a second key and its values. -/
theorem oneKey_of_length_le {values : List Word} (hLength : values.length ≤ 1) {state : LineState}
    (hState : (scan intValue (some (lineText values))).2 = state) : OneKey state := by
  rintro tail rfl -
  have hSuffix := suffix_scan hState
  match values, hLength with
  | [], _ =>
    obtain rfl := List.suffix_nil.mp hSuffix
    rfl
  | [value], _ =>
    have hSuffix' : tail <:+ ' ' :: value.val := by simpa [lineText] using hSuffix
    rw [afterWord_word value.property.2 hSuffix']
    rfl

/-- One line a key, in the order of `save_user_settings`. A line may lack
values, and its values may be any words. -/
structure SettingsFile where
  timeout : List Word
  autoConnect : List Word
  slaveAudio : List Word
  masterAudio : List Word
  length_timeout : timeout.length ≤ 1
  length_autoConnect : autoConnect.length ≤ 1
  length_slaveAudio : slaveAudio.length ≤ 3
  length_masterAudio : masterAudio.length ≤ 4

namespace SettingsFile

variable (file : SettingsFile)

def text : List Char :=
  settingsLine "connection_timeout_s" file.timeout ++ (settingsLine "auto_connect_enabled" file.autoConnect ++
    (settingsLine "slave_audio" file.slaveAudio ++ (settingsLine "master_audio" file.masterAudio ++ [])))

def takenTimeout : Option Int := (takeTimeout (some (lineText file.timeout))).1

def takenAutoConnect : Option Bool := (takeFlag (some (lineText file.autoConnect))).1

def takenSlaveEnabled : Option Bool := (takeFlag (some (lineText file.slaveAudio))).1

def takenSlaveFormat : Option AudioFormat := (takeFormat (takeFlag (some (lineText file.slaveAudio))).2).1

def takenMasterOverridden : Option Bool := (takeFlag (some (lineText file.masterAudio))).1

def takenMasterEnabled : Option Bool := (takeFlag (takeFlag (some (lineText file.masterAudio))).2).1

def takenMasterFormat : Option AudioFormat :=
  (takeFormat (takeFlag (takeFlag (some (lineText file.masterAudio))).2).2).1

def ReachesAutoConnect : Prop := GoesOn (lineEnd "connection_timeout_s" file.timeout)

def ReachesSlaveAudio : Prop := file.ReachesAutoConnect ∧ GoesOn (lineEnd "auto_connect_enabled" file.autoConnect)

def ReachesMasterAudio : Prop := file.ReachesSlaveAudio ∧ GoesOn (lineEnd "slave_audio" file.slaveAudio)

instance : Decidable file.ReachesAutoConnect := inferInstanceAs (Decidable (GoesOn _))

instance : Decidable file.ReachesSlaveAudio := inferInstanceAs (Decidable (_ ∧ _))

instance : Decidable file.ReachesMasterAudio := inferInstanceAs (Decidable (_ ∧ _))

/-- No line that is reached is read as a second key with values. A line with
one value never is. -/
structure OneKeyALine : Prop where
  slaveAudio : file.ReachesSlaveAudio → OneKey (lineEnd "slave_audio" file.slaveAudio)
  masterAudio : file.ReachesMasterAudio → OneKey (lineEnd "master_audio" file.masterAudio)

/-- Each line that is reached sets what it is taken for. The others leave the
defaults. -/
theorem loadUserSettings_text (hOneKey : file.OneKeyALine) :
    loadUserSettings file.text =
      { connectionTimeoutS := file.takenTimeout.getD 10,
        autoConnectEnabled := if file.ReachesAutoConnect then file.takenAutoConnect.getD true else true,
        slaveAudioSendEnabled := if file.ReachesSlaveAudio then file.takenSlaveEnabled.getD true else true,
        slaveAudioFormat := if file.ReachesSlaveAudio then file.takenSlaveFormat.getD {} else {},
        masterAudioOverridden := if file.ReachesMasterAudio then file.takenMasterOverridden.getD false else false,
        masterAudioSendEnabled := if file.ReachesMasterAudio then file.takenMasterEnabled.getD true else true,
        masterAudioFormat := if file.ReachesMasterAudio then file.takenMasterFormat.getD {} else {} } := by
  unfold loadUserSettings text
  have hTimeout : OneKey (lineEnd "connection_timeout_s" file.timeout) := oneKey_of_length_le file.length_timeout rfl
  have hAuto : OneKey (lineEnd "auto_connect_enabled" file.autoConnect) :=
    oneKey_of_length_le file.length_autoConnect rfl
  have hKeys {key : String} (hKey : key ∈ keys) (values : List Word) (rest : List Char) :=
    startsNoNumber_settingsLine hKey values rest
  have hEnd : StartsNoNumber [] := by simp [StartsNoNumber]
  rw [loadSettings_settingsLine (by decide) (hKeys (by decide) _ _) hTimeout]
  by_cases hReachesAuto : file.ReachesAutoConnect
  · have hGoesOn : GoesOn (lineEnd "connection_timeout_s" file.timeout) := hReachesAuto
    rw [if_pos hGoesOn, loadSettings_settingsLine (by decide) (hKeys (by decide) _ _) hAuto]
    by_cases hReachesSlave : file.ReachesSlaveAudio
    · rw [if_pos hReachesSlave.2,
        loadSettings_settingsLine (by decide) (hKeys (by decide) _ _) (hOneKey.slaveAudio hReachesSlave)]
      by_cases hReachesMaster : file.ReachesMasterAudio
      · rw [if_pos hReachesMaster.2,
          loadSettings_settingsLine (by decide) hEnd (hOneKey.masterAudio hReachesMaster), loadSettings_none rfl, ite_self]
        simp only [hReachesAuto, hReachesSlave, hReachesMaster, if_true]
        rfl
      · rw [if_neg fun h => hReachesMaster ⟨hReachesSlave, h⟩]
        simp only [hReachesAuto, hReachesSlave, hReachesMaster, if_true, if_false]
        rfl
    · have hNoMaster : ¬file.ReachesMasterAudio := fun h => hReachesSlave h.1
      rw [if_neg fun h => hReachesSlave ⟨hReachesAuto, h⟩]
      simp only [hReachesAuto, hReachesSlave, hNoMaster, if_true, if_false]
      rfl
  · have hNoSlave : ¬file.ReachesSlaveAudio := fun h => hReachesAuto h.1
    have hNoMaster : ¬file.ReachesMasterAudio := fun h => hNoSlave h.1
    have hStops : ¬GoesOn (lineEnd "connection_timeout_s" file.timeout) := hReachesAuto
    rw [if_neg hStops]
    simp only [hReachesAuto, hNoSlave, hNoMaster, if_false]
    rfl

end SettingsFile

section Whole

variable {value : Word} {values : List Word}

theorem lineText_cons (value : Word) (values : List Word) :
    lineText (value :: values) = ' ' :: (value.val ++ lineText values) := rfl

/-- A word is a number if the digits at its start are all of it. -/
theorem wholeNumber_eq_some {text : List Char} {number : Int} (h : wholeNumber text = some number) :
    ∃ negative n, leadingNumber text = some (negative, n, []) ∧ number = if negative then -(n : Int) else n := by
  unfold wholeNumber at h
  split at h
  · rename_i negative n hLead
    exact ⟨negative, n, hLead, (Option.some.inj h).symm⟩
  · cases h

/-- A value that is a number as a whole is read, and nothing more. -/
theorem scan_word {α : Type} {convert : Bool → Nat → Option α} {negative : Bool} {n : Nat} {result : α}
    (hLead : leadingNumber value.val = some (negative, n, [])) (hConvert : convert negative n = some result) :
    scan convert (some (lineText (value :: values))) = (some result, some (lineText values)) := by
  have hMore : ∀ c ∈ (lineText values).head?, c.isDigit = false := by
    cases values with
    | nil => simp [lineText]
    | cons next values => simp [lineText_cons]
  have hSpace : leadingNumber (' ' :: (value.val ++ lineText values)) = leadingNumber (value.val ++ lineText values) := by
    unfold leadingNumber
    rw [List.dropWhile_cons_of_pos (by decide)]
  simp only [scan, lineText_cons, hSpace, leadingNumber_append hLead hMore, hConvert, List.nil_append]

/-- A value that is there is the first word of the line. -/
theorem exists_cons_of_numberAt {number : Int} (h : numberAt values 0 = some number) :
    ∃ value rest, values = value :: rest ∧ wholeNumber value.val = some number := by
  cases values with
  | nil => cases h
  | cons value values => exact ⟨value, values, rfl, h⟩

/-- An `int` in its range is read as it stands, and the line goes
on behind it. -/
theorem scan_int {number : Int} (h : numberAt values 0 = some number) (hRange : 0 ≤ number ∧ number ≤ 3600) :
    scan intValue (some (lineText values)) = (some number, some (lineText values.tail)) := by
  obtain ⟨value, values, rfl, hWhole⟩ := exists_cons_of_numberAt h
  obtain ⟨negative, n, hLead, hNumber⟩ := wholeNumber_eq_some hWhole
  refine scan_word hLead ?_
  simp only [intValue, ← hNumber]
  rw [if_pos (by omega)]

/-- So is a `uint32_t`. -/
theorem scan_uint32 {number : Int} (h : numberAt values 0 = some number) (hRange : 0 < number ∧ number ≤ 48000) :
    scan uint32Value (some (lineText values)) = (some (UInt32.ofNat number.toNat), some (lineText values.tail)) := by
  obtain ⟨value, values, rfl, hWhole⟩ := exists_cons_of_numberAt h
  obtain ⟨negative, n, hLead, hNumber⟩ := wholeNumber_eq_some hWhole
  refine scan_word hLead ?_
  cases negative with
  | true =>
    simp only [if_true] at hNumber
    omega
  | false =>
    obtain rfl : number = n := by simpa using hNumber
    simp only [uint32Value, Int.toNat_natCast]
    rw [if_pos (by omega), if_neg (by decide)]

/-- A good timeout is taken. -/
theorem takeTimeout_lineText {timeout : Int} (h : timeoutAt values 0 = some timeout) :
    (takeTimeout (some (lineText values))).1 = some timeout := by
  obtain ⟨hNumber, hRange⟩ := Option.filter_eq_some_iff.mp h
  obtain ⟨hLow, hHigh⟩ : 1 ≤ timeout ∧ timeout ≤ 3600 := of_decide_eq_true hRange
  have hScan := scan_int hNumber ⟨by omega, hHigh⟩
  simp only [takeTimeout, hScan]
  exact Option.filter_eq_some_iff.mpr ⟨rfl, hRange⟩

/-- A flag is stored as 0 or 1. -/
theorem flagOf_eq_some {number : Int} {flag : Bool} (h : flagOf number = some flag) : number = 0 ∨ number = 1 := by
  unfold flagOf at h
  split at h
  · exact Or.inl ‹_›
  · split at h
    · exact Or.inr ‹_›
    · cases h

/-- A good flag is taken, and the line goes on behind it. -/
theorem takeFlag_lineText {flag : Bool} (h : flagAt values 0 = some flag) :
    takeFlag (some (lineText values)) = (some flag, some (lineText values.tail)) := by
  obtain ⟨number, hNumber, hFlag⟩ := Option.bind_eq_some_iff.mp h
  have hScan := scan_int hNumber (by rcases flagOf_eq_some hFlag with rfl | rfl <;> decide)
  simp only [takeFlag, hScan, Option.bind_some, hFlag]

/-- A good format is taken with both of its numbers. -/
theorem takeFormat_lineText {format : AudioFormat} (h : formatAt values 0 = some format) :
    takeFormat (some (lineText values)) = (some format, some (lineText values.tail.tail)) := by
  unfold formatAt at h
  split at h
  · rename_i sampleRate bitDepth hRate hDepth
    split at h
    · rename_i hSupported
      obtain ⟨hRates, hDepths⟩ := hSupported
      cases h
      have hTail : numberAt values.tail 0 = some bitDepth := by
        rwa [numberAt, List.getElem?_tail]
      have hScanRate := scan_uint32 hRate (by omega)
      have hScanDepth := scan_uint32 hTail (by omega)
      have hValid : validFormat ⟨UInt32.ofNat sampleRate.toNat, (UInt32.ofNat bitDepth.toNat).toUInt8⟩ ∧
          (UInt32.ofNat bitDepth.toNat).toUInt8 = UInt8.ofNat bitDepth.toNat := by
        rcases hRates with rfl | rfl <;> rcases hDepths with rfl | rfl <;> decide
      simp only [takeFormat, hScanRate, hScanDepth]
      rw [if_pos hValid.1, hValid.2]
    · cases h
  · cases h

theorem flagAt_tail (values : List Word) (i : Nat) : flagAt values.tail i = flagAt values (i + 1) := by
  simp only [flagAt, numberAt, List.getElem?_tail]

theorem formatAt_tail (values : List Word) (i : Nat) : formatAt values.tail i = formatAt values (i + 1) := by
  simp only [formatAt, numberAt, List.getElem?_tail]

end Whole

def digitsWord (n : Nat) : Word :=
  ⟨Nat.toDigits 10 n, Nat.toDigits_ne_nil, fun c hc => IStream.isSpace_of_isDigit (IStream.isDigit_toDigits c hc)⟩

/-- The digits of a number are read back as that number. -/
theorem leadingNumber_digitsWord (n : Nat) : leadingNumber (digitsWord n).val = some (false, n, []) := by
  have hSpace : (Nat.toDigits 10 n).dropWhile isSpace = Nat.toDigits 10 n := by
    rw [List.dropWhile_eq_self_iff]
    intro hPos
    rw [IStream.isSpace_of_isDigit (IStream.isDigit_toDigits _ (List.getElem_mem hPos))]
    decide
  have hSign := @IStream.takeSign_signedDigits [] false n
  simp only [IStream.signedDigits, Bool.false_eq_true, if_false, List.nil_append, List.append_nil] at hSign
  have hTake : (Nat.toDigits 10 n).takeWhile Char.isDigit = Nat.toDigits 10 n :=
    List.takeWhile_eq_self_iff.mpr IStream.isDigit_toDigits
  have hDrop : (Nat.toDigits 10 n).dropWhile Char.isDigit = [] :=
    List.dropWhile_eq_nil_iff.mpr IStream.isDigit_toDigits
  unfold leadingNumber digitsWord
  simp only [hSpace, hSign, hTake, hDrop]
  rw [if_neg Nat.toDigits_ne_nil, Nat.ofDigitChars_ten_toDigits]

theorem lineText_map_digitsWord (values : List Nat) : lineText (values.map digitsWord) = writeValues values := by
  unfold lineText writeValues
  rw [List.flatMap_map]
  rfl

/-- The lines that are saved are lines of the file, with digits for words. -/
theorem settingsLine_map_digitsWord (key : String) (values : List Nat) :
    settingsLine key (values.map digitsWord) = writeLine key values := by
  rw [settingsLine, writeLine, lineText_map_digitsWord, List.append_assoc]

section Digits

variable {n : Nat} {values : List Word}

/-- A saved number is read back, and the line goes on behind it. -/
theorem scan_digitsWord {α : Type} {convert : Bool → Nat → Option α} {result : α} (h : convert false n = some result) :
    scan convert (some (lineText (digitsWord n :: values))) = (some result, some (lineText values)) :=
  scan_word (leadingNumber_digitsWord n) h

/-- Behind a saved flag the line goes on, whatever the flag is. -/
theorem takeFlag_digitsWord (flag : Bool) :
    (takeFlag (some (lineText (digitsWord flag.toNat :: values)))).2 = some (lineText values) := by
  have hValue : intValue false flag.toNat = some (flag.toNat : Int) := by cases flag <;> rfl
  rw [takeFlag, scan_digitsWord hValue]

/-- So it does behind a saved format. -/
theorem takeFormat_digitsWord (format : AudioFormat) :
    (takeFormat (some (lineText (digitsWord format.sampleRate.toNat :: digitsWord format.bitDepth.toNat :: values)))).2 =
      some (lineText values) := by
  have hValue {n : Nat} (h : n ≤ 4294967295) : uint32Value false n = some (UInt32.ofNat n) := if_pos h
  have hRate := Nat.le_of_lt_succ format.sampleRate.toNat_lt
  have hDepth : format.bitDepth.toNat ≤ 4294967295 := by
    have hByte := format.bitDepth.toNat_lt
    omega
  rw [takeFormat, scan_digitsWord (hValue hRate)]
  simp only [scan_digitsWord (hValue hDepth)]

end Digits

/-- The words of the lines of `save_user_settings` with a format. -/
def slaveWords (enabled : Bool) (format : AudioFormat) : List Word :=
  [enabled.toNat, format.sampleRate.toNat, format.bitDepth.toNat].map digitsWord

def masterWords (overridden enabled : Bool) (format : AudioFormat) : List Word :=
  [overridden.toNat, enabled.toNat, format.sampleRate.toNat, format.bitDepth.toNat].map digitsWord

theorem oneKey_nil : OneKey (some []) := by
  rintro text h -
  cases h
  rfl

/-- A saved line of the Slave's audio is no second key, whatever
its values are. -/
theorem oneKey_slaveWords (enabled : Bool) (format : AudioFormat) :
    OneKey (lineEnd "slave_audio" (slaveWords enabled format)) := by
  have hEnd : lineEnd "slave_audio" (slaveWords enabled format) = some [] := by
    calc
      _ = (takeFormat (takeFlag (some (lineText (slaveWords enabled format)))).2).2 := rfl
      _ = _ := by
        simp only [slaveWords, List.map_cons, takeFlag_digitsWord, takeFormat_digitsWord]
        rfl
  rw [hEnd]
  exact oneKey_nil

/-- Nor is a saved line of the Master's audio. -/
theorem oneKey_masterWords (overridden enabled : Bool) (format : AudioFormat) :
    OneKey (lineEnd "master_audio" (masterWords overridden enabled format)) := by
  have hEnd : lineEnd "master_audio" (masterWords overridden enabled format) = some [] := by
    calc
      _ = (takeFormat (takeFlag (takeFlag (some (lineText (masterWords overridden enabled format)))).2).2).2 := rfl
      _ = _ := by
        simp only [masterWords, List.map_cons, takeFlag_digitsWord, takeFormat_digitsWord]
        rfl
  rw [hEnd]
  exact oneKey_nil

/-- Saved settings are such a file. -/
theorem exists_text_eq_save (settings : UserSettings) :
    ∃ file : SettingsFile, file.text = saveUserSettings settings ∧ file.OneKeyALine := by
  refine ⟨{
    timeout := [(clampTimeout settings.connectionTimeoutS).toNat].map digitsWord
    autoConnect := [settings.autoConnectEnabled.toNat].map digitsWord
    slaveAudio := slaveWords settings.slaveAudioSendEnabled settings.slaveAudioFormat
    masterAudio :=
      masterWords settings.masterAudioOverridden settings.masterAudioSendEnabled settings.masterAudioFormat
    length_timeout := le_refl 1
    length_autoConnect := le_refl 1
    length_slaveAudio := le_refl 3
    length_masterAudio := le_refl 4 }, ?_, ⟨fun _ => oneKey_slaveWords _ _, fun _ => oneKey_masterWords _ _ _⟩⟩
  simp only [SettingsFile.text, slaveWords, masterWords, settingsLine_map_digitsWord, saveUserSettings,
    List.append_assoc, List.append_nil]

section Spread

variable {α : Type} {reached intact : Prop} {good taken : Option α} {initial loaded : α}

/-- A value of an intact line is loaded, and a bad one leaves the default. -/
def Restored (intact : Prop) (good : Option α) (initial loaded : α) : Prop :=
  (intact → good = some loaded) ∧ (good = none → loaded = initial)

/-- What is taken for a bad value is the default, and a line that is not
reached has the default. -/
def Contained (reached intact : Prop) (good taken : Option α) (initial : α) : Prop :=
  (reached → good = none → ∀ value, taken = some value → value = initial) ∧
  (¬reached → intact → good = some initial)

/-- A value is restored exactly when it is contained: an intact one is reached
and taken, and of a bad one nothing is. -/
theorem restored_iff [Decidable reached] (hTaken : intact → good.isSome ∧ taken = good) :
    Restored intact good initial (if reached then taken.getD initial else initial) ↔
      Contained reached intact good taken initial := by
  unfold Restored Contained
  by_cases hReached : reached
  · simp only [hReached, if_true, true_implies, not_true_eq_false, false_implies, and_true]
    constructor
    · rintro ⟨-, hBad⟩ hNone value rfl
      exact hBad hNone
    · intro hBad
      constructor
      · intro hIntact
        obtain ⟨hSome, rfl⟩ := hTaken hIntact
        obtain ⟨value, rfl⟩ := Option.isSome_iff_exists.mp hSome
        rfl
      · intro hNone
        cases hValue : taken with
        | none => rfl
        | some value => exact hBad hNone value hValue
  · simp [hReached]

end Spread

namespace SettingsFile

variable (file : SettingsFile)

def TimeoutIntact : Prop := (timeoutAt file.timeout 0).isSome

def AutoConnectIntact : Prop := (flagAt file.autoConnect 0).isSome

def SlaveAudioIntact : Prop := (flagAt file.slaveAudio 0).isSome ∧ (formatAt file.slaveAudio 1).isSome

def MasterAudioIntact : Prop :=
  (flagAt file.masterAudio 0).isSome ∧ (flagAt file.masterAudio 1).isSome ∧ (formatAt file.masterAudio 2).isSome

variable {file}

/-- What is taken of an intact timeout is its value. -/
theorem TimeoutIntact.taken (h : file.TimeoutIntact) :
    (timeoutAt file.timeout 0).isSome ∧ file.takenTimeout = timeoutAt file.timeout 0 := by
  obtain ⟨timeout, hTimeout⟩ := Option.isSome_iff_exists.mp h
  exact ⟨h, (takeTimeout_lineText hTimeout).trans hTimeout.symm⟩

/-- What is taken of an intact flag is its value. -/
theorem AutoConnectIntact.taken (h : file.AutoConnectIntact) :
    (flagAt file.autoConnect 0).isSome ∧ file.takenAutoConnect = flagAt file.autoConnect 0 := by
  obtain ⟨flag, hFlag⟩ := Option.isSome_iff_exists.mp h
  refine ⟨h, ?_⟩
  rw [takenAutoConnect, takeFlag_lineText hFlag, hFlag]

/-- What is taken of an intact line of the Slave's audio are
its two values. -/
theorem SlaveAudioIntact.taken (h : file.SlaveAudioIntact) :
    file.takenSlaveEnabled = flagAt file.slaveAudio 0 ∧ file.takenSlaveFormat = formatAt file.slaveAudio 1 := by
  obtain ⟨hEnabled, hFormat⟩ := h
  obtain ⟨enabled, hEnabled⟩ := Option.isSome_iff_exists.mp hEnabled
  obtain ⟨format, hFormat⟩ := Option.isSome_iff_exists.mp hFormat
  rw [← formatAt_tail] at hFormat ⊢
  rw [takenSlaveEnabled, takenSlaveFormat, takeFlag_lineText hEnabled, takeFormat_lineText hFormat, hEnabled, hFormat]
  exact ⟨rfl, rfl⟩

/-- What is taken of an intact line of the Master's audio are its
three values. -/
theorem MasterAudioIntact.taken (h : file.MasterAudioIntact) :
    file.takenMasterOverridden = flagAt file.masterAudio 0 ∧ file.takenMasterEnabled = flagAt file.masterAudio 1 ∧
      file.takenMasterFormat = formatAt file.masterAudio 2 := by
  obtain ⟨hOverridden, hEnabled, hFormat⟩ := h
  obtain ⟨overridden, hOverridden⟩ := Option.isSome_iff_exists.mp hOverridden
  obtain ⟨enabled, hEnabled⟩ := Option.isSome_iff_exists.mp hEnabled
  obtain ⟨format, hFormat⟩ := Option.isSome_iff_exists.mp hFormat
  rw [← flagAt_tail] at hEnabled ⊢
  rw [← formatAt_tail, ← formatAt_tail] at hFormat ⊢
  rw [takenMasterOverridden, takenMasterEnabled, takenMasterFormat, takeFlag_lineText hOverridden,
    takeFlag_lineText hEnabled, takeFormat_lineText hFormat, hOverridden, hEnabled, hFormat]
  exact ⟨rfl, rfl, rfl⟩

end SettingsFile

/-- What a load gives back of a file. -/
structure Recovered (file : SettingsFile) (loaded : UserSettings) : Prop where
  timeout : Restored file.TimeoutIntact (timeoutAt file.timeout 0) 10 loaded.connectionTimeoutS
  autoConnect : Restored file.AutoConnectIntact (flagAt file.autoConnect 0) true loaded.autoConnectEnabled
  slaveEnabled : Restored file.SlaveAudioIntact (flagAt file.slaveAudio 0) true loaded.slaveAudioSendEnabled
  slaveFormat : Restored file.SlaveAudioIntact (formatAt file.slaveAudio 1) {} loaded.slaveAudioFormat
  masterOverridden : Restored file.MasterAudioIntact (flagAt file.masterAudio 0) false loaded.masterAudioOverridden
  masterEnabled : Restored file.MasterAudioIntact (flagAt file.masterAudio 1) true loaded.masterAudioSendEnabled
  masterFormat : Restored file.MasterAudioIntact (formatAt file.masterAudio 2) {} loaded.masterAudioFormat

/-- No bad value has any effect: it is taken for nothing but its default, and
a line behind a line that ends the reading has the defaults. -/
structure NoSpread (file : SettingsFile) : Prop where
  timeout : Contained True file.TimeoutIntact (timeoutAt file.timeout 0) file.takenTimeout 10
  autoConnect :
    Contained file.ReachesAutoConnect file.AutoConnectIntact (flagAt file.autoConnect 0) file.takenAutoConnect true
  slaveEnabled :
    Contained file.ReachesSlaveAudio file.SlaveAudioIntact (flagAt file.slaveAudio 0) file.takenSlaveEnabled true
  slaveFormat :
    Contained file.ReachesSlaveAudio file.SlaveAudioIntact (formatAt file.slaveAudio 1) file.takenSlaveFormat {}
  masterOverridden :
    Contained file.ReachesMasterAudio file.MasterAudioIntact (flagAt file.masterAudio 0) file.takenMasterOverridden false
  masterEnabled :
    Contained file.ReachesMasterAudio file.MasterAudioIntact (flagAt file.masterAudio 1) file.takenMasterEnabled true
  masterFormat :
    Contained file.ReachesMasterAudio file.MasterAudioIntact (formatAt file.masterAudio 2) file.takenMasterFormat {}

/-- Where no line is read as two, the file is recovered exactly when no bad
value has an effect. -/
theorem recovered_iff_of_oneKey (file : SettingsFile) (hOneKey : file.OneKeyALine) :
    Recovered file (loadUserSettings file.text) ↔ NoSpread file := by
  have hTimeout := @restored_iff _ True _ _ _ (10 : Int) _ fun h : file.TimeoutIntact => h.taken
  have hAuto := @restored_iff _ file.ReachesAutoConnect _ _ _ true _
    fun h : file.AutoConnectIntact => h.taken
  have hSlaveEnabled := @restored_iff _ file.ReachesSlaveAudio file.SlaveAudioIntact _ _ true _
    fun h => ⟨h.1, h.taken.1⟩
  have hSlaveFormat := @restored_iff _ file.ReachesSlaveAudio file.SlaveAudioIntact _ _ ({} : AudioFormat) _
    fun h => ⟨h.2, h.taken.2⟩
  have hMasterOverridden := @restored_iff _ file.ReachesMasterAudio file.MasterAudioIntact _ _ false _
    fun h => ⟨h.1, h.taken.1⟩
  have hMasterEnabled := @restored_iff _ file.ReachesMasterAudio file.MasterAudioIntact _ _ true _
    fun h => ⟨h.2.1, h.taken.2.1⟩
  have hMasterFormat := @restored_iff _ file.ReachesMasterAudio file.MasterAudioIntact _ _ ({} : AudioFormat) _
    fun h => ⟨h.2.2, h.taken.2.2⟩
  rw [if_pos trivial] at hTimeout
  rw [file.loadUserSettings_text hOneKey]
  constructor
  · intro h
    exact ⟨hTimeout.mp h.timeout, hAuto.mp h.autoConnect, hSlaveEnabled.mp h.slaveEnabled,
      hSlaveFormat.mp h.slaveFormat, hMasterOverridden.mp h.masterOverridden, hMasterEnabled.mp h.masterEnabled,
      hMasterFormat.mp h.masterFormat⟩
  · intro h
    exact ⟨hTimeout.mpr h.timeout, hAuto.mpr h.autoConnect, hSlaveEnabled.mpr h.slaveEnabled,
      hSlaveFormat.mpr h.slaveFormat, hMasterOverridden.mpr h.masterOverridden, hMasterEnabled.mpr h.masterEnabled,
      hMasterFormat.mpr h.masterFormat⟩

/-- A load gives back what it should if no bad value spreads, and, where no
line is read as two, only then. -/
theorem recovered_iff (file : SettingsFile) :
    (file.OneKeyALine ∧ NoSpread file → Recovered file (loadUserSettings file.text)) ∧
    (file.OneKeyALine → Recovered file (loadUserSettings file.text) → NoSpread file) := by
  constructor
  · rintro ⟨hOneKey, h⟩
    exact (recovered_iff_of_oneKey file hOneKey).mpr h
  · intro hOneKey h
    exact (recovered_iff_of_oneKey file hOneKey).mp h

/-- The timeout is missing, and the other lines are as they were saved. -/
def lostTimeout : SettingsFile where
  timeout := []
  autoConnect := [digitsWord 0]
  slaveAudio := slaveWords true {}
  masterAudio := masterWords false true {}
  length_timeout := Nat.zero_le 1
  length_autoConnect := le_refl 1
  length_slaveAudio := le_refl 3
  length_masterAudio := le_refl 4

/-- The line behind it is not read, though nothing is wrong with it. -/
theorem lostTimeout_spreads : ¬∀ file, Recovered file (loadUserSettings file.text) := by
  intro h
  have hIntact : flagAt lostTimeout.autoConnect 0 = some false := by decide
  have hAuto := (h lostTimeout).autoConnect.1 (Option.isSome_of_eq_some hIntact)
  have hStops : ¬lostTimeout.ReachesAutoConnect := by decide
  have hOneKey : lostTimeout.OneKeyALine :=
    ⟨fun _ => oneKey_slaveWords true {}, fun _ => oneKey_masterWords false true {}⟩
  rw [hIntact, lostTimeout.loadUserSettings_text hOneKey] at hAuto
  simp only [hStops, if_false] at hAuto
  cases hAuto

end NoCapKVM.Discovery
