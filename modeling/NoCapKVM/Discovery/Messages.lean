import NoCapKVM.Codec.BigEndian
import NoCapKVM.Discovery.Sodium

/-! The messages of a connection and their formats: `monitor_protocol.cpp`,
`audio_port_protocol.cpp`, `ping_protocol.cpp`, `clipboard_protocol.h` and the
device id of `protocol.cpp`. -/
namespace NoCapKVM.Discovery

open Codec

def kMsgMonitorList : UInt8 := 1
def kMsgAudioPort : UInt8 := 7
def kMsgAudioStatus : UInt8 := 8
def kMsgAudioControl : UInt8 := 9
def kMsgHeartbeat : UInt8 := 10
def kMsgGoAway : UInt8 := 11
def kMsgClipboardText : UInt8 := 12
def kMsgClipboardImage : UInt8 := 13
def kMsgPing : UInt8 := 14
def kMsgPong : UInt8 := 15

def encodeDeviceId (deviceId : UInt64) : Bytes UInt8 8 :=
  ⟨be32 (deviceId >>> 32).toUInt32 ++ be32 deviceId.toUInt32, rfl⟩

def decodeDeviceId (bytes : Bytes UInt8 8) : UInt64 :=
  match bytes.val with
  | [a, b, c, d, e, f, g, h] =>
      (readBe32 a b c d).toUInt64 <<< 32 ||| (readBe32 e f g h).toUInt64
  | _ => 0

@[simp] theorem decodeDeviceId_encodeDeviceId (deviceId : UInt64) :
    decodeDeviceId (encodeDeviceId deviceId) = deviceId := by
  have hHigh := readBe32_be32 (deviceId >>> 32).toUInt32
  have hLow := readBe32_be32 deviceId.toUInt32
  simp only [decodeDeviceId, encodeDeviceId, be32, List.cons_append, List.nil_append]
  rw [hHigh, hLow, high_or_low]

structure MonitorInfo where
  x : Int32 := 0
  y : Int32 := 0
  width : Int32 := 0
  height : Int32 := 0
  primary : Bool := false
  name : List UInt8 := []
  deriving DecidableEq

def kMaxMonitors : Nat := 32
def kMaxNameLen : Nat := 32

def encodeMonitor (m : MonitorInfo) : List UInt8 :=
  be32 m.x.toUInt32 ++ be32 m.y.toUInt32 ++ be32 m.width.toUInt32 ++ be32 m.height.toUInt32 ++
    [if m.primary then 1 else 0, (min m.name.length kMaxNameLen).toUInt8] ++ m.name.take kMaxNameLen

def encodeMonitorList (monitors : List MonitorInfo) : List UInt8 :=
  (min monitors.length kMaxMonitors).toUInt8 :: (monitors.take kMaxMonitors).flatMap encodeMonitor

/-- One record, and what follows it. -/
def decodeMonitor : List UInt8 → Option (MonitorInfo × List UInt8)
  | x₀ :: x₁ :: x₂ :: x₃ :: y₀ :: y₁ :: y₂ :: y₃ :: w₀ :: w₁ :: w₂ :: w₃ :: h₀ :: h₁ :: h₂ :: h₃ ::
      primary :: nameLen :: rest =>
      if rest.length < nameLen.toNat then none
      else some ({ x := (readBe32 x₀ x₁ x₂ x₃).toInt32, y := (readBe32 y₀ y₁ y₂ y₃).toInt32,
                   width := (readBe32 w₀ w₁ w₂ w₃).toInt32, height := (readBe32 h₀ h₁ h₂ h₃).toInt32,
                   primary := primary != 0, name := rest.take nameLen.toNat },
                 rest.drop nameLen.toNat)
  | _ => none

def decodeMonitors : Nat → List UInt8 → Option (List MonitorInfo)
  | 0, _ => some []
  | count + 1, data => do
      let (m, rest) ← decodeMonitor data
      let ms ← decodeMonitors count rest
      return m :: ms

def decodeMonitorList : List UInt8 → Option (List MonitorInfo)
  | [] => none
  | count :: rest => decodeMonitors count.toNat rest

def encodeAudioPort (port : UInt16) : List UInt8 := be16 port

def decodeAudioPort : List UInt8 → Option UInt16
  | a :: b :: _ => some (readBe16 a b)
  | _ => none

structure AudioSettings where
  sendEnabled : Bool
  sampleRate : UInt32
  bitDepth : UInt8
  deriving DecidableEq

def encodeAudioSettings (s : AudioSettings) : List UInt8 :=
  (if s.sendEnabled then 1 else 0) :: be32 s.sampleRate ++ [s.bitDepth]

def decodeAudioSettings : List UInt8 → Option AudioSettings
  | e :: a :: b :: c :: d :: bitDepth :: _ => some ⟨e != 0, readBe32 a b c d, bitDepth⟩
  | _ => none

def encodePingSeq (seq : UInt32) : List UInt8 := be32 seq

def decodePingSeq : List UInt8 → Option UInt32
  | a :: b :: c :: d :: _ => some (readBe32 a b c d)
  | _ => none

theorem decodeAudioPort_encodeAudioPort (port : UInt16) (rest : List UInt8) :
    decodeAudioPort (encodeAudioPort port ++ rest) = some port := by
  simp [decodeAudioPort, encodeAudioPort, be16]

theorem decodeAudioSettings_encodeAudioSettings (s : AudioSettings) (rest : List UInt8) :
    decodeAudioSettings (encodeAudioSettings s ++ rest) = some s := by
  obtain ⟨sendEnabled, sampleRate, bitDepth⟩ := s
  cases sendEnabled <;> simp [decodeAudioSettings, encodeAudioSettings, be32]

theorem decodePingSeq_encodePingSeq (seq : UInt32) (rest : List UInt8) :
    decodePingSeq (encodePingSeq seq ++ rest) = some seq := by
  simp [decodePingSeq, encodePingSeq, be32]

inductive ClipboardMsgType where
  | text
  | jpeg
  deriving DecidableEq

structure ClipboardMessage where
  type : ClipboardMsgType
  data : List UInt8

end NoCapKVM.Discovery
