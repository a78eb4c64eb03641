import NoCapKVM.Codec.BigEndian

/-! `input/protocol.cpp`, and what a Slave does with the messages. -/
namespace NoCapKVM.Input

open Codec

def kMsgMouseAbsolute : UInt8 := 2
def kMsgMouseButton : UInt8 := 3
def kMsgMouseWheel : UInt8 := 4
def kMsgKey : UInt8 := 5
def kMsgModifierSync : UInt8 := 6

def encodeMouseAbsolute (x y : Int32) : List UInt8 :=
  be32 x.toUInt32 ++ be32 y.toUInt32

def decodeMouseAbsolute : List UInt8 → Option (Int32 × Int32)
  | a :: b :: c :: d :: e :: f :: g :: h :: _ =>
      some ((readBe32 a b c d).toInt32, (readBe32 e f g h).toInt32)
  | _ => none

def encodeMouseButton (button : UInt8) (down : Bool) : List UInt8 :=
  [button, if down then 1 else 0]

def decodeMouseButton : List UInt8 → Option (UInt8 × Bool)
  | button :: down :: _ => some (button, down != 0)
  | _ => none

def encodeMouseWheel (delta : Int16) : List UInt8 :=
  be16 delta.toUInt16

def decodeMouseWheel : List UInt8 → Option Int16
  | a :: b :: _ => some (readBe16 a b).toInt16
  | _ => none

def encodeKey (vk scancode : UInt32) (down extended : Bool) : List UInt8 :=
  be32 vk ++ be32 scancode ++ [if down then 1 else 0, if extended then 1 else 0]

def decodeKey : List UInt8 → Option (UInt32 × UInt32 × Bool × Bool)
  | a :: b :: c :: d :: e :: f :: g :: h :: down :: extended :: _ =>
      some (readBe32 a b c d, readBe32 e f g h, down != 0, extended != 0)
  | _ => none

def encodeModifierSync (mask : UInt8) : List UInt8 := [mask]

def decodeModifierSync : List UInt8 → Option UInt8
  | mask :: _ => some mask
  | _ => none

/-- A call of one of the functions of `inject.h`. -/
inductive Injection where
  | mouseAbsolute (x y : Int32)
  | mouseButton (button : UInt8) (down : Bool)
  | mouseWheel (delta : Int16)
  | key (vk scancode : UInt32) (down extended : Bool)
  | setModifiers (mask : UInt8)
  deriving DecidableEq

/-- `dispatch_input_message`: the call that a message leads to. -/
def dispatchInputMessage (msgType : UInt8) (payload : List UInt8) : Option Injection :=
  if msgType = kMsgMouseAbsolute then
    (decodeMouseAbsolute payload).map fun (x, y) => .mouseAbsolute x y
  else if msgType = kMsgMouseButton then
    (decodeMouseButton payload).map fun (button, down) => .mouseButton button down
  else if msgType = kMsgMouseWheel then
    (decodeMouseWheel payload).map .mouseWheel
  else if msgType = kMsgKey then
    (decodeKey payload).map fun (vk, scancode, down, extended) => .key vk scancode down extended
  else if msgType = kMsgModifierSync then
    (decodeModifierSync payload).map .setModifiers
  else none

theorem flag_ne_zero (b : Bool) : ((if b then 1 else 0 : UInt8) != 0) = b := by
  cases b <;> rfl

section Append

variable (rest : List UInt8)

/-- A position is read back, whatever comes after it in the message. -/
theorem decodeMouseAbsolute_append (x y : Int32) :
    decodeMouseAbsolute (encodeMouseAbsolute x y ++ rest) = some (x, y) := by
  have hX := readBe32_be32 x.toUInt32
  have hY := readBe32_be32 y.toUInt32
  simp only [encodeMouseAbsolute, be32, List.cons_append, List.nil_append, decodeMouseAbsolute]
  rw [hX, hY]
  rfl

/-- So is a button event. -/
theorem decodeMouseButton_append (button : UInt8) (down : Bool) :
    decodeMouseButton (encodeMouseButton button down ++ rest) = some (button, down) := by
  simp only [encodeMouseButton, List.cons_append, decodeMouseButton, flag_ne_zero]

/-- So is a turn of the wheel. -/
theorem decodeMouseWheel_append (delta : Int16) : decodeMouseWheel (encodeMouseWheel delta ++ rest) = some delta := by
  have hDelta := readBe16_be16 delta.toUInt16
  simp only [encodeMouseWheel, be16, List.cons_append, decodeMouseWheel]
  rw [hDelta]
  rfl

/-- So is a key event, with both of its flags. -/
theorem decodeKey_append (vk scancode : UInt32) (down extended : Bool) :
    decodeKey (encodeKey vk scancode down extended ++ rest) = some (vk, scancode, down, extended) := by
  have hVk := readBe32_be32 vk
  have hScancode := readBe32_be32 scancode
  simp only [encodeKey, be32, List.cons_append, List.nil_append, decodeKey, flag_ne_zero]
  rw [hVk, hScancode]

/-- And so is a mask of modifiers. -/
theorem decodeModifierSync_append (mask : UInt8) : decodeModifierSync (encodeModifierSync mask ++ rest) = some mask := rfl

end Append

section Short

variable {payload : List UInt8}

/-- A message that is too short for a position is refused. -/
theorem decodeMouseAbsolute_short (h : payload.length < 8) : decodeMouseAbsolute payload = none := by
  unfold decodeMouseAbsolute
  split
  · simp only [List.length_cons] at h
    omega
  · rfl

theorem decodeMouseButton_short (h : payload.length < 2) : decodeMouseButton payload = none := by
  unfold decodeMouseButton
  split
  · simp only [List.length_cons] at h
    omega
  · rfl

theorem decodeMouseWheel_short (h : payload.length < 2) : decodeMouseWheel payload = none := by
  unfold decodeMouseWheel
  split
  · simp only [List.length_cons] at h
    omega
  · rfl

/-- So is one that is too short for a key event. -/
theorem decodeKey_short (h : payload.length < 10) : decodeKey payload = none := by
  unfold decodeKey
  split
  · simp only [List.length_cons] at h
    omega
  · rfl

theorem decodeModifierSync_short (h : payload.length < 1) : decodeModifierSync payload = none := by
  obtain rfl : payload = [] := List.length_eq_zero_iff.mp (Nat.lt_one_iff.mp h)
  rfl

end Short
end NoCapKVM.Input
