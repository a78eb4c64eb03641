import NoCapKVM.Audio.Channel
import NoCapKVM.Text.IStream

/-! `user_settings.cpp`: the choices of the user, in a text file. -/
namespace NoCapKVM.Discovery

open Audio Text

def kMaxConnectionTimeoutSeconds : Int := 3600

structure UserSettings where
  connectionTimeoutS : Int := 10
  autoConnectEnabled : Bool := true
  slaveAudioSendEnabled : Bool := true
  slaveAudioFormat : AudioFormat := {}
  masterAudioOverridden : Bool := false
  masterAudioSendEnabled : Bool := true
  masterAudioFormat : AudioFormat := {}
  deriving DecidableEq

def validFormat (format : AudioFormat) : Bool :=
  (format.sampleRate == 24000 || format.sampleRate == 48000) && (format.bitDepth == 8 || format.bitDepth == 16)

def readFormat (input : IStream) (format : AudioFormat) : AudioFormat × IStream :=
  let (sampleRate, input) := input.uint32
  let (bitDepth, input) := input.uint32
  match sampleRate, bitDepth with
  | some sampleRate, some bitDepth =>
      let candidate : AudioFormat := ⟨sampleRate, bitDepth.toUInt8⟩
      (if validFormat candidate then candidate else format, input)
  | _, _ => (format, input)

/-- `if (in >> value && (value == 0 || value == 1)) flag = value != 0;` -/
def readFlag (input : IStream) (flag : Bool) : Bool × IStream :=
  let (value, input) := input.int
  (match value with
    | some value => if value = 0 ∨ value = 1 then value != 0 else flag
    | none => flag, input)

def readTimeout (input : IStream) (timeout : Int) : Int × IStream :=
  let (value, input) := input.int
  (match value with
    | some value => if value ≥ 1 ∧ value ≤ kMaxConnectionTimeoutSeconds then value else timeout
    | none => timeout, input)

/-- What stands after a key. -/
def readValues (key : String) (input : IStream) (settings : UserSettings) : UserSettings × IStream :=
  if key = "connection_timeout_s" then
    let (timeout, input) := readTimeout input settings.connectionTimeoutS
    ({ settings with connectionTimeoutS := timeout }, input)
  else if key = "auto_connect_enabled" then
    let (enabled, input) := readFlag input settings.autoConnectEnabled
    ({ settings with autoConnectEnabled := enabled }, input)
  else if key = "slave_audio" then
    let (enabled, input) := readFlag input settings.slaveAudioSendEnabled
    let (format, input) := readFormat input settings.slaveAudioFormat
    ({ settings with slaveAudioSendEnabled := enabled, slaveAudioFormat := format }, input)
  else if key = "master_audio" then
    let (overridden, input) := readFlag input settings.masterAudioOverridden
    let (enabled, input) := readFlag input settings.masterAudioSendEnabled
    let (format, input) := readFormat input settings.masterAudioFormat
    ({ settings with
        masterAudioOverridden := overridden, masterAudioSendEnabled := enabled, masterAudioFormat := format }, input)
  else (settings, input.skipLine)

/-- Reading a format leaves no more than was there. -/
theorem length_readFormat_le (input : IStream) (format : AudioFormat) :
    (readFormat input format).2.rest.length ≤ input.rest.length := by
  have hLength : input.uint32.2.uint32.2.rest.length ≤ input.rest.length :=
    le_trans (IStream.length_uint32_le _) (IStream.length_uint32_le _)
  unfold readFormat
  dsimp only
  split <;> exact hLength

/-- Nor does reading a flag. -/
theorem length_readFlag_le (input : IStream) (flag : Bool) :
    (readFlag input flag).2.rest.length ≤ input.rest.length :=
  input.length_int_le

/-- So reading the values of a key leaves no more than was there, and the loop
over the keys ends. -/
theorem length_readValues_le (key : String) (input : IStream) (settings : UserSettings) :
    (readValues key input settings).2.rest.length ≤ input.rest.length := by
  unfold readValues
  split
  · exact input.length_int_le
  · split
    · exact length_readFlag_le input settings.autoConnectEnabled
    · split
      · exact le_trans (length_readFormat_le _ _) (length_readFlag_le input _)
      · split
        · calc
            _ ≤ _ := length_readFormat_le _ _
            _ ≤ _ := length_readFlag_le _ _
            _ ≤ _ := length_readFlag_le input _
        · exact input.length_skipLine_le

/-- `while (in >> key)` -/
def loadSettings (input : IStream) (settings : UserSettings) : UserSettings :=
  match _h : input.word with
  | (some key, input') =>
      let read := readValues (String.ofList key) input' settings
      loadSettings read.2 read.1
  | (none, _) => settings
termination_by input.rest.length
decreasing_by
  have hWord : input.word.2.rest.length < input.rest.length := IStream.length_word_lt (by rw [_h])
  rw [_h] at hWord
  exact lt_of_le_of_lt (length_readValues_le _ _ _) hWord

/-- One turn of the loop. -/
theorem loadSettings_word {input input' : IStream} {key : List Char} (h : input.word = (some key, input'))
    (settings : UserSettings) :
    loadSettings input settings =
      loadSettings (readValues (String.ofList key) input' settings).2 (readValues (String.ofList key) input' settings).1 := by
  rw [loadSettings]
  split
  · rename_i heq
    obtain ⟨hKey, rfl⟩ := Prod.mk.inj (h.symm.trans heq)
    obtain rfl := Option.some.inj hKey
    rfl
  · rename_i heq
    cases h.symm.trans heq

/-- Where no key follows, the settings stay as they are. -/
theorem loadSettings_none {input : IStream} (h : input.word.1 = none) (settings : UserSettings) :
    loadSettings input settings = settings := by
  rw [loadSettings]
  split
  · rename_i heq
    rw [heq] at h
    cases h
  · rfl

/-- A file that does not open reads as an empty one. -/
def loadUserSettings (file : List Char) : UserSettings :=
  loadSettings ⟨file, false⟩ {}

def writeValues (values : List Nat) : List Char :=
  values.flatMap fun value => ' ' :: Nat.toDigits 10 value

/-- A key, and the values after it. -/
def writeLine (key : String) (values : List Nat) : List Char :=
  key.toList ++ writeValues values ++ ['\n']

/-- `std::clamp(settings.connection_timeout_s, 1, kMaxConnectionTimeoutSeconds)` -/
def clampTimeout (timeout : Int) : Int := max 1 (min timeout kMaxConnectionTimeoutSeconds)

def saveUserSettings (settings : UserSettings) : List Char :=
  writeLine "connection_timeout_s" [(clampTimeout settings.connectionTimeoutS).toNat] ++
  writeLine "auto_connect_enabled" [settings.autoConnectEnabled.toNat] ++
  writeLine "slave_audio" [settings.slaveAudioSendEnabled.toNat, settings.slaveAudioFormat.sampleRate.toNat,
    settings.slaveAudioFormat.bitDepth.toNat] ++
  writeLine "master_audio" [settings.masterAudioOverridden.toNat, settings.masterAudioSendEnabled.toNat,
    settings.masterAudioFormat.sampleRate.toNat, settings.masterAudioFormat.bitDepth.toNat]

@[simp] theorem writeValues_nil : writeValues [] = [] := rfl

@[simp] theorem writeValues_cons (value : Nat) (values : List Nat) :
    writeValues (value :: values) = ' ' :: (Nat.toDigits 10 value ++ writeValues values) := rfl

section Written

variable {c : Char} {rest : List Char}

/-- A flag that was written is read back. -/
theorem readFlag_written (b flag : Bool) (hEnd : isSpace c) :
    readFlag ⟨' ' :: (Nat.toDigits 10 b.toNat ++ c :: rest), false⟩ flag = (b, ⟨c :: rest, false⟩) := by
  have hRange : b.toNat ≤ 2147483647 := le_trans (Bool.toNat_le b) (by decide)
  unfold readFlag
  rw [IStream.int_written hEnd hRange]
  cases b <;> rfl

/-- What is written as the timeout is within the range that the loader
accepts. -/
theorem clampTimeout_range (timeout : Int) : 1 ≤ clampTimeout timeout ∧ clampTimeout timeout ≤ 3600 := by
  unfold clampTimeout kMaxConnectionTimeoutSeconds
  omega

/-- So it is read back, whatever was asked for. -/
theorem readTimeout_written (timeout old : Int) (hEnd : isSpace c) :
    readTimeout ⟨' ' :: (Nat.toDigits 10 (clampTimeout timeout).toNat ++ c :: rest), false⟩ old =
      (clampTimeout timeout, ⟨c :: rest, false⟩) := by
  obtain ⟨hLow, hHigh⟩ := clampTimeout_range timeout
  have hRange : (clampTimeout timeout).toNat ≤ 2147483647 := by omega
  have hCast : ((clampTimeout timeout).toNat : Int) = clampTimeout timeout := Int.toNat_of_nonneg (by omega)
  unfold readTimeout
  rw [IStream.int_written hEnd hRange, hCast]
  simp only [ge_iff_le]
  rw [if_pos ⟨hLow, hHigh⟩]

/-- What a stored format comes back as, where `old` is the default. -/
def storedFormat (format old : AudioFormat) : AudioFormat := if validFormat format then format else old

/-- A format is read back as it is stored: as itself if it is one that can be
used, and else as the default. -/
theorem readFormat_written (format old : AudioFormat) (hEnd : isSpace c) :
    readFormat ⟨' ' :: (Nat.toDigits 10 format.sampleRate.toNat ++
      ' ' :: (Nat.toDigits 10 format.bitDepth.toNat ++ c :: rest)), false⟩ old =
      (storedFormat format old, ⟨c :: rest, false⟩) := by
  have hDepth : format.bitDepth.toNat = format.bitDepth.toUInt32.toNat := by simp
  unfold readFormat
  rw [hDepth, IStream.uint32_written _ (by decide)]
  dsimp only
  rw [IStream.uint32_written _ hEnd]
  simp [storedFormat]

/-- The line of the timeout gives back the timeout, and the stream goes on
behind it. -/
theorem readValues_timeout (timeout : Int) (settings : UserSettings) :
    readValues "connection_timeout_s" ⟨writeValues [(clampTimeout timeout).toNat] ++ '\n' :: rest, false⟩ settings =
      ({ settings with connectionTimeoutS := clampTimeout timeout }, ⟨'\n' :: rest, false⟩) := by
  simp (disch := decide) [readValues, readTimeout_written]

/-- The same holds of the line for connecting automatically. -/
theorem readValues_autoConnect (enabled : Bool) (settings : UserSettings) :
    readValues "auto_connect_enabled" ⟨writeValues [enabled.toNat] ++ '\n' :: rest, false⟩ settings =
      ({ settings with autoConnectEnabled := enabled }, ⟨'\n' :: rest, false⟩) := by
  simp (disch := decide) [readValues, readFlag_written]

/-- The line of the Slave's audio gives back its flag and its format. -/
theorem readValues_slaveAudio (enabled : Bool) (format : AudioFormat) (settings : UserSettings) :
    readValues "slave_audio"
        ⟨writeValues [enabled.toNat, format.sampleRate.toNat, format.bitDepth.toNat] ++ '\n' :: rest, false⟩ settings =
      ({ settings with
          slaveAudioSendEnabled := enabled, slaveAudioFormat := storedFormat format settings.slaveAudioFormat },
        ⟨'\n' :: rest, false⟩) := by
  simp (disch := decide) [readValues, readFlag_written, readFormat_written]

/-- The line of the Master's audio gives back its two flags and its format. -/
theorem readValues_masterAudio (overridden enabled : Bool) (format : AudioFormat) (settings : UserSettings) :
    readValues "master_audio" ⟨writeValues [overridden.toNat, enabled.toNat, format.sampleRate.toNat,
        format.bitDepth.toNat] ++ '\n' :: rest, false⟩ settings =
      ({ settings with
          masterAudioOverridden := overridden, masterAudioSendEnabled := enabled,
          masterAudioFormat := storedFormat format settings.masterAudioFormat },
        ⟨'\n' :: rest, false⟩) := by
  simp (disch := decide) [readValues, readFlag_written, readFormat_written]

/-- The loop goes through a written line, with what its values have set. -/
theorem loadSettings_line {file : List Char} {values : List Nat} {settings settings' : UserSettings} (gap : List Char)
    (key : String) (hFile : file = gap ++ (writeLine key values ++ rest)) (hGap : ∀ x ∈ gap, isSpace x)
    (hKey : key.toList.all (!isSpace ·) = true) (hNe : key.toList ≠ []) (hValues : values ≠ [])
    (hRead : readValues key ⟨writeValues values ++ '\n' :: rest, false⟩ settings = (settings', ⟨'\n' :: rest, false⟩)) :
    loadSettings ⟨file, false⟩ settings = loadSettings ⟨'\n' :: rest, false⟩ settings' := by
  obtain ⟨value, values, rfl⟩ := List.exists_cons_of_ne_nil hValues
  have hLine : writeLine key (value :: values) ++ rest =
      key.toList ++ ' ' :: (Nat.toDigits 10 value ++ (writeValues values ++ '\n' :: rest)) := by
    simp [writeLine]
  have hWord := @IStream.word_written gap ' ' (Nat.toDigits 10 value ++ (writeValues values ++ '\n' :: rest)) key.toList
    hGap (List.all_eq_true.mp hKey) hNe rfl
  simp only [writeValues_cons, List.cons_append, List.append_assoc] at hRead
  rw [hFile, hLine, loadSettings_word hWord, String.ofList_toList, hRead]

/-- Space at the end of the file is no line. -/
theorem loadSettings_end (gap : List Char) (hGap : ∀ x ∈ gap, isSpace x) (settings : UserSettings) :
    loadSettings ⟨gap, false⟩ settings = settings :=
  loadSettings_none (by rw [IStream.word_end hGap]) settings

end Written

/-- What was saved is loaded again. A timeout out of its range is not saved as
it is, and a format that is not supported comes back as the default one. -/
theorem loadUserSettings_saved (settings : UserSettings) :
    loadUserSettings (saveUserSettings settings) =
      { settings with
          connectionTimeoutS := clampTimeout settings.connectionTimeoutS,
          slaveAudioFormat := storedFormat settings.slaveAudioFormat {},
          masterAudioFormat := storedFormat settings.masterAudioFormat {} } := by
  have hGap : ∀ x ∈ ['\n'], isSpace x := by simp [isSpace]
  have hLast (line : List Char) : '\n' :: line = ['\n'] ++ (line ++ []) := by simp
  unfold loadUserSettings saveUserSettings
  rw [List.append_assoc, List.append_assoc]
  calc
    _ = _ := loadSettings_line [] "connection_timeout_s" rfl (by simp) (by decide) (by decide) (by simp)
      (readValues_timeout _ _)
    _ = _ := loadSettings_line ['\n'] "auto_connect_enabled" rfl hGap (by decide) (by decide) (by simp)
      (readValues_autoConnect _ _)
    _ = _ := loadSettings_line ['\n'] "slave_audio" rfl hGap (by decide) (by decide) (by simp)
      (readValues_slaveAudio _ _ _)
    _ = _ := loadSettings_line ['\n'] "master_audio" (hLast _) hGap (by decide) (by decide) (by simp)
      (readValues_masterAudio _ _ _ _)
    _ = _ := loadSettings_end ['\n'] hGap _

/-- Settings with usable formats are loaded as they were saved, but for a
timeout that was out of range. -/
theorem loadUserSettings_saveUserSettings {settings : UserSettings} (hSlave : validFormat settings.slaveAudioFormat)
    (hMaster : validFormat settings.masterAudioFormat) :
    loadUserSettings (saveUserSettings settings) =
      { settings with connectionTimeoutS := clampTimeout settings.connectionTimeoutS } := by
  rw [loadUserSettings_saved]
  simp only [storedFormat, hSlave, hMaster, if_true]

/-- Settings with supported formats survive a restart, and one unsupported
format takes nothing else with it. -/
theorem settings_restored (settings : UserSettings) :
    (validFormat settings.slaveAudioFormat ∧ validFormat settings.masterAudioFormat →
      loadUserSettings (saveUserSettings settings) =
        { settings with connectionTimeoutS := max 1 (min settings.connectionTimeoutS 3600) }) ∧
    loadUserSettings (saveUserSettings settings) =
      { settings with
          connectionTimeoutS := max 1 (min settings.connectionTimeoutS 3600),
          slaveAudioFormat := if validFormat settings.slaveAudioFormat then settings.slaveAudioFormat else {},
          masterAudioFormat := if validFormat settings.masterAudioFormat then settings.masterAudioFormat else {} } := by
  constructor
  · rintro ⟨hSlave, hMaster⟩
    exact loadUserSettings_saveUserSettings hSlave hMaster
  · exact loadUserSettings_saved settings

end NoCapKVM.Discovery
