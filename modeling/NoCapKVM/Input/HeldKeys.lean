import NoCapKVM.EventLog.Since
import NoCapKVM.Input.ModifierSync

/-! Which keys and buttons of a Linux Slave a sequence of calls leaves held, said
from the calls alone. -/
namespace NoCapKVM.Input

open EventLog

/-- A call, with whether a missing device can be created at that moment. -/
abbrev TimedCall := Bool × Injection

def IsKeyboard : Injection → Bool
  | .key .. | .setModifiers _ => true
  | _ => false

/-- The keyboard exists when the call writes to it. -/
def keyboardReady (u : Injector) (before : List TimedCall) (call : TimedCall) : Bool :=
  u.keyboardDev || (before ++ [call]).any fun c => IsKeyboard c.2 && c.1

def mouseReady (u : Injector) (before : List TimedCall) (call : TimedCall) : Bool :=
  u.mouseDev || (before ++ [call]).any fun c => !IsKeyboard c.2 && c.1

/-- What a call says about a modifier: down, up or nothing. -/
def polarity (m : Modifier) : Injection → Option Bool
  | .key _ scancode down extended => if (keycode scancode extended).any m.Covers then some down else none
  | .setModifiers mask => some (hasBit mask m.bit)
  | _ => none

/-- What the calls said last about the modifier. -/
def lastSaid (u : Injector) (m : Modifier) (calls : List TimedCall) : Bool :=
  ((calls.filterMap fun c => polarity m c.2).getLast?).getD (hasBit u.modifierState m.bit)

/-- The call is a press (a release) of the key. A modifier sync is one of
the left key of each modifier about which the calls before it said the
opposite last. -/
def Turns (u : Injector) (code : UInt16) (down : Bool) (before : List TimedCall) (call : TimedCall) : Prop :=
  keyboardReady u before call = true ∧
    match call.2 with
    | .key _ scancode d extended => keycode scancode extended = some code ∧ d = down
    | .setModifiers mask =>
        ∃ m : Modifier, code = m.leftCode ∧ hasBit mask m.bit = down ∧ lastSaid u m before ≠ down
    | _ => False

def Clicks (u : Injector) (code : UInt16) (down : Bool) (before : List TimedCall) (call : TimedCall) : Prop :=
  mouseReady u before call = true ∧
    match call.2 with
    | .mouseButton button d => Injector.buttonCode button = some code ∧ d = down
    | _ => False

/-- Every press among the calls is followed by a release of the same
key or button. -/
def PressesReleased (u : Injector) (calls : List TimedCall) : Prop :=
  (∀ code, ¬ Since (Turns u code true) (Turns u code false) calls) ∧
    ∀ code, ¬ Since (Clicks u code true) (Clicks u code false) calls

namespace Injector

/-- One more call comes after the calls before it. -/
theorem injectAll_concat (u : Injector) (calls : List TimedCall) (call : TimedCall) :
    u.injectAll (calls ++ [call]) = (u.injectAll calls).inject call.1 call.2 := by
  simp [injectAll]

theorem setModifiers_mouse (u : Injector) (created : Bool) (mask : UInt8) :
    (u.setModifiers created mask).mouse = u.mouse ∧ (u.setModifiers created mask).mouseDev = u.mouseDev := by
  have hLoop : ∀ (ms : List Modifier) (x : Injector × Bool),
      (ms.foldl (syncModifier mask) x).1.mouse = x.1.mouse ∧
        (ms.foldl (syncModifier mask) x).1.mouseDev = x.1.mouseDev := by
    intro ms
    induction ms with
    | nil => exact fun x => ⟨rfl, rfl⟩
    | cons m ms ih =>
        intro x
        have hOne : (syncModifier mask x m).1.mouse = x.1.mouse ∧ (syncModifier mask x m).1.mouseDev = x.1.mouseDev := by
          simp only [syncModifier]
          split <;> exact ⟨rfl, rfl⟩
        rw [List.foldl_cons, (ih _).1, (ih _).2]
        exact hOne
  simp only [setModifiers]
  split <;> exact hLoop kModifiers (u.ensureKeyboardDev created, false)

theorem injectKey_mouse (u : Injector) (created : Bool) (scancode : UInt32) (down extended : Bool) :
    (u.injectKey created scancode down extended).mouse = u.mouse ∧
      (u.injectKey created scancode down extended).mouseDev = u.mouseDev := by
  unfold injectKey
  cases keycode scancode extended with
  | none => exact ⟨rfl, rfl⟩
  | some code => cases hBit : modifierBit code <;> simp only [hBit] <;> exact ⟨rfl, rfl⟩

/-- A call makes at most its own device, and only if the device can be made at
that moment. -/
theorem inject_devs (u : Injector) (created : Bool) (call : Injection) :
    (u.inject created call).keyboardDev = (u.keyboardDev || IsKeyboard call && created) ∧
      (u.inject created call).mouseDev = (u.mouseDev || !IsKeyboard call && created) := by
  cases call with
  | mouseAbsolute x y => exact ⟨(Bool.or_false _).symm, rfl⟩
  | mouseButton button down =>
      simp only [inject, injectMouseButton]
      cases buttonCode button <;> exact ⟨(Bool.or_false _).symm, rfl⟩
  | mouseWheel delta => exact ⟨(Bool.or_false _).symm, rfl⟩
  | key vk scancode down extended =>
      exact ⟨u.injectKey_dev created scancode down extended,
        (u.injectKey_mouse created scancode down extended).2.trans (Bool.or_false _).symm⟩
  | setModifiers mask =>
      exact ⟨(u.setModifiers_spec created mask).1, (u.setModifiers_mouse created mask).2.trans (Bool.or_false _).symm⟩

/-- So a device exists as soon as one of its calls could make it. -/
theorem injectAll_devs (u : Injector) (calls : List TimedCall) :
    (u.injectAll calls).keyboardDev = (u.keyboardDev || calls.any fun c => IsKeyboard c.2 && c.1) ∧
      (u.injectAll calls).mouseDev = (u.mouseDev || calls.any fun c => !IsKeyboard c.2 && c.1) := by
  induction calls using List.reverseRecOn with
  | nil => exact ⟨(Bool.or_false _).symm, (Bool.or_false _).symm⟩
  | append_singleton calls call ih =>
      obtain ⟨hKeyboard, hMouse⟩ := (u.injectAll calls).inject_devs call.1 call.2
      rw [injectAll_concat, hKeyboard, hMouse, ih.1, ih.2]
      simp [Bool.or_assoc]

theorem keyboardReady_eq (u : Injector) (calls : List TimedCall) (call : TimedCall) (hKey : IsKeyboard call.2 = true) :
    keyboardReady u calls call = ((u.injectAll calls).keyboardDev || call.1) := by
  simp [keyboardReady, (u.injectAll_devs calls).1, hKey, Bool.or_assoc]

theorem mouseReady_eq (u : Injector) (calls : List TimedCall) (call : TimedCall) (hKey : IsKeyboard call.2 = false) :
    mouseReady u calls call = ((u.injectAll calls).mouseDev || call.1) := by
  simp [mouseReady, (u.injectAll_devs calls).2, hKey, Bool.or_assoc]

/-- The shadow holds what was said last. -/
theorem injectAll_bit (u : Injector) (calls : List TimedCall) (m : Modifier) :
    hasBit (u.injectAll calls).modifierState m.bit = lastSaid u m calls := by
  induction calls using List.reverseRecOn with
  | nil => rfl
  | append_singleton calls call ih =>
      have hLast : lastSaid u m (calls ++ [call]) = (polarity m call.2).getD (lastSaid u m calls) := by
        simp only [lastSaid, List.filterMap_append, List.filterMap_cons, List.filterMap_nil]
        cases polarity m call.2 <;> simp
      rw [injectAll_concat, hLast]
      obtain ⟨created, call⟩ := call
      cases call with
      | mouseAbsolute x y => exact ih
      | mouseButton button down =>
          rw [(inject_mouse (u.injectAll calls) created (.mouseButton button down) trivial).2]
          exact ih
      | mouseWheel delta => exact ih
      | key vk scancode down extended =>
          rw [inject, injectKey_bit, polarity]
          split
          · rfl
          · exact ih
      | setModifiers mask => exact ((u.injectAll calls).setModifiers_spec created mask).2.1 m

/-- A button that the code knows is held after its press and not after its
release. -/
theorem injectMouseButton_held (u : Injector) (created : Bool) (button : UInt8) (down : Bool) (code : UInt16) :
    Held (u.injectMouseButton created button down).mouse code ↔
      if (u.mouseDev || created) = true ∧ buttonCode button = some code then down = true else Held u.mouse code := by
  unfold injectMouseButton
  cases buttonCode button with
  | none => simp [ensureMouseDev]
  | some written =>
      have hWritten : Held (emit (u.mouseDev || created)
            (emit (u.mouseDev || created) u.mouse kEvKey written (pressed down)) kEvSyn kSynReport 0) code ↔
          if (u.mouseDev || created) = true ∧ written = code then down = true else Held u.mouse code := by
        rw [held_emit_other _ _ _ _ (by decide), held_emit_key]
      simp only [Option.some.injEq]
      rw [← hWritten]
      rfl

/-- A write decides the key, and otherwise it stays as it was. -/
theorem write_iff {ready writes held : Prop} [Decidable (ready ∧ writes)] (down : Bool) :
    (if ready ∧ writes then down = true else held) ↔
      (ready ∧ writes ∧ down = true) ∨ held ∧ ¬ (ready ∧ writes ∧ down = false) := by
  split
  case isTrue hWrites => cases down <;> simp [hWrites]
  case isFalse hWrites =>
    have hNone : ∀ d : Bool, ¬ (ready ∧ writes ∧ down = d) := fun d h => hWrites ⟨h.1, h.2.1⟩
    simp only [hNone, false_or, not_false_eq_true, and_true]

/-- A key is held after a call if the call presses it, or if it was held and
the call does not release it. -/
theorem inject_held (u : Injector) (calls : List TimedCall) (call : TimedCall) (code : UInt16) :
    Held ((u.injectAll calls).inject call.1 call.2).keyboard code ↔
      Turns u code true calls call ∨ Held (u.injectAll calls).keyboard code ∧ ¬ Turns u code false calls call := by
  obtain ⟨created, call⟩ := call
  by_cases hMouse : IsMouse call
  · have hNone : ∀ down, ¬ Turns u code down calls (created, call) := by
      intro down hTurns
      cases call with
      | mouseAbsolute | mouseButton | mouseWheel => exact hTurns.2
      | key | setModifiers => exact hMouse
    rw [(inject_mouse _ created _ hMouse).1]
    simp [hNone]
  cases call with
  | mouseAbsolute | mouseButton | mouseWheel => exact absurd trivial hMouse
  | key vk scancode down extended =>
      rw [inject, injectKey_held, write_iff]
      simp only [Turns, u.keyboardReady_eq calls (created, .key vk scancode down extended) rfl]
  | setModifiers mask =>
      obtain ⟨-, -, hLeft, hOther⟩ := (u.injectAll calls).setModifiers_spec created mask
      simp only [Turns, u.keyboardReady_eq calls (created, .setModifiers mask) rfl]
      by_cases hCode : ∃ m : Modifier, code = m.leftCode
      · obtain ⟨m, rfl⟩ := hCode
        have hOnly : ∀ d : Bool, (∃ n : Modifier, m.leftCode = n.leftCode ∧ hasBit mask n.bit = d ∧ lastSaid u n calls ≠ d) ↔
            hasBit mask m.bit = d ∧ lastSaid u m calls ≠ d := by
          intro d
          constructor
          · rintro ⟨n, hCode, hTurn⟩
            rw [covers_unique (.inl rfl) (.inl hCode : n.Covers m.leftCode)]
            exact hTurn
          · exact fun hTurn => ⟨m, rfl, hTurn⟩
        rw [inject, hLeft m, injectAll_bit]
        simp only [hOnly]
        cases hasBit mask m.bit <;> cases lastSaid u m calls <;>
          cases ((u.injectAll calls).keyboardDev || created) <;> simp
      · have hApart : ∀ m : Modifier, code ≠ m.leftCode := fun m hEq => hCode ⟨m, hEq⟩
        rw [inject, hOther code hApart]
        simp [hApart]

/-- The same holds of a button. -/
theorem inject_clicked (u : Injector) (calls : List TimedCall) (call : TimedCall) (code : UInt16) :
    Held ((u.injectAll calls).inject call.1 call.2).mouse code ↔
      Clicks u code true calls call ∨ Held (u.injectAll calls).mouse code ∧ ¬ Clicks u code false calls call := by
  obtain ⟨created, call⟩ := call
  cases call with
  | mouseAbsolute x y =>
      simp only [inject, injectMouseAbsolute, emitMouse, Clicks, and_false, false_or, not_false_eq_true, and_true]
      rw [held_emit_other _ _ _ _ (by decide), held_emit_other _ _ _ _ (by decide), held_emit_other _ _ _ _ (by decide)]
      rfl
  | mouseWheel delta =>
      simp only [inject, injectMouseWheel, emitMouse, Clicks, and_false, false_or, not_false_eq_true, and_true]
      rw [held_emit_other _ _ _ _ (by decide), held_emit_other _ _ _ _ (by decide)]
      rfl
  | key vk scancode down extended =>
      rw [inject, (injectKey_mouse _ _ _ _ _).1]
      simp [Clicks]
  | setModifiers mask =>
      rw [inject, (setModifiers_mouse _ _ _).1]
      simp [Clicks]
  | mouseButton button down =>
      rw [inject, injectMouseButton_held, write_iff]
      simp only [Clicks, u.mouseReady_eq calls (created, .mouseButton button down) rfl]

/-- A key that is held was written. -/
theorem mem_of_held {written : List UinputEvent} {code : UInt16} (hHeld : Held written code) :
    ∃ e ∈ written, e.code = code := by
  obtain ⟨e, hLast, -⟩ := (Option.any_eq_true _ _).mp hHeld
  obtain ⟨hCode, hMem⟩ := key_of_last? hLast
  exact ⟨e, (List.mem_filter.mp hMem).1, hCode⟩

/-- From devices on which nothing was written yet. -/
theorem injectAll_held {u : Injector} (hKeyboard : u.keyboard = []) (hMouse : u.mouse = []) (calls : List TimedCall)
    (code : UInt16) :
    (Held (u.injectAll calls).keyboard code ↔ Since (Turns u code true) (Turns u code false) calls) ∧
      (Held (u.injectAll calls).mouse code ↔ Since (Clicks u code true) (Clicks u code false) calls) := by
  have hFresh : ¬ Held [] code := not_down_nil _ _ code
  induction calls using List.reverseRecOn with
  | nil =>
      constructor
      · exact iff_of_false (by rw [injectAll, List.foldl_nil, hKeyboard]; exact hFresh) not_since_nil
      · exact iff_of_false (by rw [injectAll, List.foldl_nil, hMouse]; exact hFresh) not_since_nil
  | append_singleton calls call ih =>
      rw [injectAll_concat, inject_held, inject_clicked, since_concat, since_concat, ih.1, ih.2]
      exact ⟨Iff.rfl, Iff.rfl⟩

end Injector

end NoCapKVM.Input
