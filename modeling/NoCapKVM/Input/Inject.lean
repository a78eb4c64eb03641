import NoCapKVM.EventLog.Last
import NoCapKVM.Input.Protocol

/-! `input/inject.cpp` on Linux: what a Slave writes to its virtual keyboard and mouse. -/
namespace NoCapKVM.Input

open EventLog

def kEvSyn : UInt16 := 0
def kEvKey : UInt16 := 1
def kEvRel : UInt16 := 2
def kEvAbs : UInt16 := 3
def kSynReport : UInt16 := 0
def kRelWheel : UInt16 := 8
def kAbsX : UInt16 := 0
def kAbsY : UInt16 := 1

def kBtnLeft : UInt16 := 0x110
def kBtnRight : UInt16 := 0x111
def kBtnMiddle : UInt16 := 0x112
def kBtnSide : UInt16 := 0x113
def kBtnExtra : UInt16 := 0x114

def kKeyLeftCtrl : UInt16 := 29
def kKeyLeftShift : UInt16 := 42
def kKeyRightShift : UInt16 := 54
def kKeyLeftAlt : UInt16 := 56
def kKeyRightCtrl : UInt16 := 97
def kKeyRightAlt : UInt16 := 100
def kKeyLeftMeta : UInt16 := 125
def kKeyRightMeta : UInt16 := 126

/-- The extended keys, by their scancodes: keypad Enter, right Ctrl, keypad
slash, right Alt, Home, Up, Page Up, Left, Right, End, Down, Page Down,
Insert, Delete, the Meta keys and Compose. -/
def extendedKeys : List (UInt32 × UInt16) :=
  [(0x1C, 96), (0x1D, kKeyRightCtrl), (0x35, 98), (0x38, kKeyRightAlt), (0x47, 102), (0x48, 103), (0x49, 104),
    (0x4B, 105), (0x4D, 106), (0x4F, 107), (0x50, 108), (0x51, 109), (0x52, 110), (0x53, 111),
    (0x5B, kKeyLeftMeta), (0x5C, kKeyRightMeta), (0x5D, 127)]

def translateExtendedScancode (scancode : UInt32) : Option UInt16 :=
  (extendedKeys.find? fun entry => entry.1 = scancode).map Prod.snd

/-- The keycode that `inject_key` writes for a scancode, if any. -/
def keycode (scancode : UInt32) (extended : Bool) : Option UInt16 :=
  if extended then translateExtendedScancode scancode
  else if 1 ≤ scancode ∧ scancode ≤ 88 then some scancode.toUInt16 else none

inductive Modifier where
  | shift
  | ctrl
  | alt
  | metaKey
  deriving DecidableEq

namespace Modifier

def bit : Modifier → UInt8
  | shift => 0
  | ctrl => 1
  | alt => 2
  | metaKey => 3

def leftCode : Modifier → UInt16
  | shift => kKeyLeftShift
  | ctrl => kKeyLeftCtrl
  | alt => kKeyLeftAlt
  | metaKey => kKeyLeftMeta

def rightCode : Modifier → UInt16
  | shift => kKeyRightShift
  | ctrl => kKeyRightCtrl
  | alt => kKeyRightAlt
  | metaKey => kKeyRightMeta

/-- The keycode is one of the two of the modifier. -/
def Covers (m : Modifier) (code : UInt16) : Prop :=
  code = m.leftCode ∨ code = m.rightCode

instance (m : Modifier) (code : UInt16) : Decidable (m.Covers code) :=
  inferInstanceAs (Decidable (_ ∨ _))

end Modifier

/-- `kModifiers` -/
def kModifiers : List Modifier := [.shift, .ctrl, .alt, .metaKey]

def modifierBit (code : UInt16) : Option UInt8 :=
  (kModifiers.find? fun m => m.Covers code).map Modifier.bit

def hasBit (mask bit : UInt8) : Bool :=
  mask &&& (1 <<< bit) != 0

def withBit (mask bit : UInt8) (value : Bool) : UInt8 :=
  if value then mask ||| (1 <<< bit) else mask &&& ~~~(1 <<< bit)

structure UinputEvent where
  type : UInt16
  code : UInt16
  value : Int32
  deriving DecidableEq

/-- The globals of `inject.cpp`, with all that was written to its devices. -/
structure Injector where
  keyboardDev : Bool := false
  mouseDev : Bool := false
  modifierState : UInt8 := 0
  keyboard : List UinputEvent := []
  mouse : List UinputEvent := []

def emit (dev : Bool) (written : List UinputEvent) (type code : UInt16) (value : Int32) : List UinputEvent :=
  if dev then written ++ [⟨type, code, value⟩] else written

def pressed (down : Bool) : Int32 := if down then 1 else 0

namespace Injector

/-- `created` tells whether the device can be created now. -/
def ensureKeyboardDev (u : Injector) (created : Bool) : Injector :=
  { u with keyboardDev := u.keyboardDev || created }

def ensureMouseDev (u : Injector) (created : Bool) : Injector :=
  { u with mouseDev := u.mouseDev || created }

def emitKeyboard (u : Injector) (type code : UInt16) (value : Int32) : Injector :=
  { u with keyboard := emit u.keyboardDev u.keyboard type code value }

def emitMouse (u : Injector) (type code : UInt16) (value : Int32) : Injector :=
  { u with mouse := emit u.mouseDev u.mouse type code value }

def injectMouseAbsolute (u : Injector) (created : Bool) (x y : Int32) : Injector :=
  (((u.ensureMouseDev created).emitMouse kEvAbs kAbsX x).emitMouse kEvAbs kAbsY y).emitMouse kEvSyn kSynReport 0

def buttonCode (button : UInt8) : Option UInt16 :=
  [kBtnLeft, kBtnRight, kBtnMiddle, kBtnSide, kBtnExtra][button.toNat]?

def injectMouseButton (u : Injector) (created : Bool) (button : UInt8) (down : Bool) : Injector :=
  let u := u.ensureMouseDev created
  match buttonCode button with
  | some code => (u.emitMouse kEvKey code (pressed down)).emitMouse kEvSyn kSynReport 0
  | none => u

/-- 120 units of the wheel on Windows are a notch on Linux. -/
def injectMouseWheel (u : Injector) (created : Bool) (delta : Int16) : Injector :=
  ((u.ensureMouseDev created).emitMouse kEvRel kRelWheel (delta / 120).toInt32).emitMouse kEvSyn kSynReport 0

def injectKey (u : Injector) (created : Bool) (scancode : UInt32) (down extended : Bool) : Injector :=
  let u := u.ensureKeyboardDev created
  match keycode scancode extended with
  | none => u
  | some code =>
    let u := (u.emitKeyboard kEvKey code (pressed down)).emitKeyboard kEvSyn kSynReport 0
    match modifierBit code with
    | some bit => { u with modifierState := withBit u.modifierState bit down }
    | none => u

/-- One pass of the loop of `set_modifiers`, with `changed`. -/
def syncModifier (mask : UInt8) (x : Injector × Bool) (m : Modifier) : Injector × Bool :=
  let wantDown := hasBit mask m.bit
  let isDown := hasBit x.1.modifierState m.bit
  if wantDown = isDown then x
  else
    let u := x.1.emitKeyboard kEvKey m.leftCode (pressed wantDown)
    ({ u with modifierState := withBit u.modifierState m.bit wantDown }, true)

def setModifiers (u : Injector) (created : Bool) (mask : UInt8) : Injector :=
  let x := kModifiers.foldl (syncModifier mask) (u.ensureKeyboardDev created, false)
  if x.2 then x.1.emitKeyboard kEvSyn kSynReport 0 else x.1

def inject (u : Injector) (created : Bool) : Injection → Injector
  | .mouseAbsolute x y => u.injectMouseAbsolute created x y
  | .mouseButton button down => u.injectMouseButton created button down
  | .mouseWheel delta => u.injectMouseWheel created delta
  | .key _ scancode down extended => u.injectKey created scancode down extended
  | .setModifiers mask => u.setModifiers created mask

end Injector

/-- The last value written for the key is 1. -/
def Held (written : List UinputEvent) (code : UInt16) : Prop :=
  Down UinputEvent.code (fun e => e.value = 1) (written.filter fun e => e.type = kEvKey) code

instance (written : List UinputEvent) (code : UInt16) : Decidable (Held written code) :=
  inferInstanceAs (Decidable (Down _ _ _ _))

theorem hasBit_or (a b bit : UInt8) : hasBit (a ||| b) bit = (hasBit a bit || hasBit b bit) := by
  have hMeet : (a ||| b) &&& (1 <<< bit) = a &&& (1 <<< bit) ||| b &&& (1 <<< bit) :=
    UInt8.toBitVec_inj.mp BitVec.and_or_distrib_right
  have hZero : ∀ x y : UInt8, x ||| y = 0 ↔ x = 0 ∧ y = 0 := by
    intro x y
    simp only [← UInt8.toBitVec_inj, UInt8.toBitVec_or]
    exact BitVec.or_eq_zero_iff
  rw [Bool.eq_iff_iff]
  simp only [hasBit, hMeet, bne_iff_ne, ne_eq, hZero, Bool.or_eq_true, not_and_or]

theorem hasBit_withBit (mask : UInt8) (m n : Modifier) (value : Bool) :
    hasBit (withBit mask n.bit value) m.bit = if m = n then value else hasBit mask m.bit := by
  have hOne : hasBit (1 <<< n.bit) m.bit = decide (m = n) := by cases m <;> cases n <;> rfl
  have hRest : ~~~(1 <<< n.bit) &&& (1 <<< m.bit) = if m = n then (0 : UInt8) else 1 <<< m.bit := by
    cases m <;> cases n <;> rfl
  cases value with
  | true =>
      rw [withBit, if_pos rfl, hasBit_or, hOne]
      by_cases h : m = n <;> simp [h]
  | false =>
      rw [withBit, if_neg Bool.false_ne_true, hasBit, UInt8.and_assoc, hRest]
      by_cases h : m = n <;> simp [h, hasBit]

theorem covers_unique {m n : Modifier} {code : UInt16} (hM : m.Covers code) (hN : n.Covers code) : m = n := by
  rcases hM with rfl | rfl <;> revert hN <;> cases m <;> cases n <;> decide

theorem modifierBit_of_covers {m : Modifier} {code : UInt16} (hCovers : m.Covers code) :
    modifierBit code = some m.bit := by
  rcases hCovers with rfl | rfl <;> cases m <;> decide

theorem modifierBit_eq_some {code : UInt16} {bit : UInt8} (hBit : modifierBit code = some bit) :
    ∃ m : Modifier, m.Covers code ∧ bit = m.bit := by
  obtain ⟨m, hFind, rfl⟩ := Option.map_eq_some_iff.mp hBit
  exact ⟨m, of_decide_eq_true (List.find?_some (p := fun m : Modifier => decide (m.Covers code)) hFind), rfl⟩

end NoCapKVM.Input
