import Mathlib.Data.List.Induction
import Mathlib.Data.List.Nodup
import NoCapKVM.Input.Inject

/-! What a modifier sync leaves held on a Linux Slave. -/
namespace NoCapKVM.Input

open EventLog

theorem held_emit_key (dev : Bool) (written : List UinputEvent) (code : UInt16) (down : Bool) (c : UInt16) :
    Held (emit dev written kEvKey code (pressed down)) c ↔
      if dev = true ∧ code = c then down = true else Held written c := by
  cases dev with
  | false => simp [emit]
  | true =>
      have hValue : decide (pressed down = 1) = down := by cases down <;> decide
      simp only [emit, if_true, Held, List.filter_append, List.filter_cons, List.filter_nil, decide_true, true_and]
      rw [down_concat, hValue]

theorem held_emit_other (dev : Bool) (written : List UinputEvent) {type : UInt16} (code : UInt16) (value : Int32)
    (hType : type ≠ kEvKey) (c : UInt16) : Held (emit dev written type code value) c ↔ Held written c := by
  cases dev with
  | false => rfl
  | true => simp [emit, Held, hType]

namespace Injector

variable (u : Injector) (created : Bool)

theorem injectKey_dev (scancode : UInt32) (down extended : Bool) :
    (u.injectKey created scancode down extended).keyboardDev = (u.keyboardDev || created) := by
  unfold injectKey
  cases keycode scancode extended with
  | none => rfl
  | some code => cases hBit : modifierBit code <;> simp only [hBit] <;> rfl

theorem injectKey_held (scancode : UInt32) (down extended : Bool) (c : UInt16) :
    Held (u.injectKey created scancode down extended).keyboard c ↔
      if (u.keyboardDev || created) = true ∧ keycode scancode extended = some c then down = true
      else Held u.keyboard c := by
  unfold injectKey
  cases keycode scancode extended with
  | none => simp [ensureKeyboardDev]
  | some code =>
      have hWritten : Held (emit (u.keyboardDev || created)
            (emit (u.keyboardDev || created) u.keyboard kEvKey code (pressed down)) kEvSyn kSynReport 0) c ↔
          if (u.keyboardDev || created) = true ∧ code = c then down = true else Held u.keyboard c := by
        rw [held_emit_other _ _ _ _ (by decide), held_emit_key]
      simp only [Option.some.injEq]
      rw [← hWritten]
      cases modifierBit code <;> rfl

theorem injectKey_bit (scancode : UInt32) (down extended : Bool) (m : Modifier) :
    hasBit (u.injectKey created scancode down extended).modifierState m.bit =
      if (keycode scancode extended).any m.Covers then down else hasBit u.modifierState m.bit := by
  unfold injectKey
  cases keycode scancode extended with
  | none => rfl
  | some code =>
      simp only [Option.any_some, decide_eq_true_eq]
      by_cases hCovers : m.Covers code
      · simp only [modifierBit_of_covers hCovers, hasBit_withBit, if_pos hCovers]
        rfl
      · rw [if_neg hCovers]
        cases hBit : modifierBit code with
        | none => rfl
        | some bit =>
            obtain ⟨n, hN, rfl⟩ := modifierBit_eq_some hBit
            have hApart : m ≠ n := fun hEq => hCovers (hEq ▸ hN)
            simp only [hasBit_withBit, if_neg hApart]
            rfl

/-- The passes of the loop each see to their own modifier. -/
theorem syncModifiers_spec (mask : UInt8) (ms : List Modifier) (hNodup : ms.Nodup) (x : Injector × Bool) :
    let y := ms.foldl (syncModifier mask) x
    y.1.keyboardDev = x.1.keyboardDev ∧
      (∀ m : Modifier, hasBit y.1.modifierState m.bit =
        if m ∈ ms then hasBit mask m.bit else hasBit x.1.modifierState m.bit) ∧
      (∀ m : Modifier, Held y.1.keyboard m.leftCode ↔
        if m ∈ ms ∧ x.1.keyboardDev = true ∧ hasBit mask m.bit ≠ hasBit x.1.modifierState m.bit then
          hasBit mask m.bit = true
        else Held x.1.keyboard m.leftCode) ∧
      ∀ c, (∀ m : Modifier, c ≠ m.leftCode) → (Held y.1.keyboard c ↔ Held x.1.keyboard c) := by
  induction ms generalizing x with
  | nil => exact ⟨rfl, fun m => by simp, fun m => by simp, fun c _ => Iff.rfl⟩
  | cons n ms ih =>
      obtain ⟨hFresh, hRest⟩ := List.nodup_cons.mp hNodup
      obtain ⟨hDev, hBits, hLeft, hOther⟩ := ih hRest (syncModifier mask x n)
      have hLefts : ∀ m : Modifier, n.leftCode = m.leftCode ↔ m = n := by
        intro m
        cases m <;> cases n <;> decide
      have hOne : (syncModifier mask x n).1.keyboardDev = x.1.keyboardDev ∧
          (∀ m : Modifier, hasBit (syncModifier mask x n).1.modifierState m.bit =
            if m = n then hasBit mask m.bit else hasBit x.1.modifierState m.bit) ∧
          (∀ c, Held (syncModifier mask x n).1.keyboard c ↔
            if (x.1.keyboardDev = true ∧ n.leftCode = c) ∧ hasBit mask n.bit ≠ hasBit x.1.modifierState n.bit then
              hasBit mask n.bit = true
            else Held x.1.keyboard c) := by
        unfold syncModifier
        by_cases hSame : hasBit mask n.bit = hasBit x.1.modifierState n.bit
        · simp only [if_pos hSame]
          refine ⟨trivial, fun m => ?_, fun c => ?_⟩
          · split
            case isTrue hEq => rw [hEq, hSame]
            case isFalse => rfl
          · simp [hSame]
        · simp only [if_neg hSame]
          refine ⟨rfl, fun m => ?_, fun c => ?_⟩
          · rw [hasBit_withBit]
            split
            case isTrue hEq => rw [hEq]
            case isFalse => rfl
          · simp only [ne_eq, hSame, not_false_eq_true, and_true]
            exact held_emit_key x.1.keyboardDev x.1.keyboard n.leftCode (hasBit mask n.bit) c
      refine ⟨hDev.trans hOne.1, fun m => ?_, fun m => ?_, fun c hC => ?_⟩
      · rw [List.foldl_cons, hBits m, hOne.2.1 m]
        by_cases hEq : m = n
        · simp [hEq]
        · simp [hEq]
      · rw [List.foldl_cons, hLeft m, hOne.1, hOne.2.1 m, hOne.2.2 m.leftCode]
        simp only [hLefts]
        by_cases hEq : m = n
        · subst hEq
          simp [hFresh]
        · simp [hEq]
      · rw [List.foldl_cons, hOther c hC, hOne.2.2 c, if_neg fun h => hC n h.1.2.symm]

theorem setModifiers_spec (mask : UInt8) :
    let v := u.setModifiers created mask
    v.keyboardDev = (u.keyboardDev || created) ∧
      (∀ m : Modifier, hasBit v.modifierState m.bit = hasBit mask m.bit) ∧
      (∀ m : Modifier, Held v.keyboard m.leftCode ↔
        if (u.keyboardDev || created) = true ∧ hasBit mask m.bit ≠ hasBit u.modifierState m.bit then
          hasBit mask m.bit = true
        else Held u.keyboard m.leftCode) ∧
      ∀ c, (∀ m : Modifier, c ≠ m.leftCode) → (Held v.keyboard c ↔ Held u.keyboard c) := by
  have hAll : ∀ m : Modifier, m ∈ kModifiers := by
    intro m
    cases m <;> decide
  have hLoop := syncModifiers_spec mask kModifiers (by decide) (u.ensureKeyboardDev created, false)
  simp only [hAll, if_true, true_and] at hLoop
  simp only [setModifiers]
  split
  · refine ⟨hLoop.1, hLoop.2.1, fun m => ?_, fun c hC => ?_⟩
    · exact (held_emit_other _ _ _ _ (by decide) _).trans (hLoop.2.2.1 m)
    · exact (held_emit_other _ _ _ _ (by decide) _).trans (hLoop.2.2.2 c hC)
  · exact hLoop

end Injector

/-- Calls in order, each with whether a missing device can be created then. -/
def Injector.injectAll (u : Injector) (calls : List (Bool × Injection)) : Injector :=
  calls.foldl (fun u call => u.inject call.1 call.2) u

theorem inject_keyboardDev (u : Injector) (created : Bool) (call : Injection) (hDev : u.keyboardDev = true) :
    (u.inject created call).keyboardDev = true := by
  cases call with
  | mouseAbsolute x y => exact hDev
  | mouseButton button down =>
      simp only [Injector.inject, Injector.injectMouseButton]
      cases Injector.buttonCode button <;> exact hDev
  | mouseWheel delta => exact hDev
  | key vk scancode down extended =>
      exact (u.injectKey_dev created scancode down extended).trans (by rw [hDev, Bool.true_or])
  | setModifiers mask => exact (u.setModifiers_spec created mask).1.trans (by rw [hDev, Bool.true_or])

/-- The calls for the mouse leave the keyboard alone. -/
def IsMouse : Injection → Prop
  | .mouseAbsolute .. | .mouseButton .. | .mouseWheel _ => True
  | _ => False

theorem inject_mouse (u : Injector) (created : Bool) (call : Injection) (hMouse : IsMouse call) :
    (u.inject created call).keyboard = u.keyboard ∧ (u.inject created call).modifierState = u.modifierState := by
  cases call with
  | mouseAbsolute x y => exact ⟨rfl, rfl⟩
  | mouseButton button down =>
      simp only [Injector.inject, Injector.injectMouseButton]
      cases Injector.buttonCode button <;> exact ⟨rfl, rfl⟩
  | mouseWheel delta => exact ⟨rfl, rfl⟩
  | key => exact hMouse.elim
  | setModifiers => exact hMouse.elim

/-- Some key of every modifier that is marked in the shadow is held. -/
def Backed (u : Injector) : Prop :=
  ∀ m : Modifier, hasBit u.modifierState m.bit = true → Held u.keyboard m.leftCode ∨ Held u.keyboard m.rightCode

/-- No left key is the right key of a modifier. -/
theorem leftCode_ne_rightCode (m n : Modifier) : m.rightCode ≠ n.leftCode := by
  cases m <;> cases n <;> decide

/-- Every call keeps each marked modifier backed by a key that is held. -/
theorem backed_inject {u : Injector} (hDev : u.keyboardDev = true) (hBacked : Backed u) (created : Bool)
    (call : Injection) : Backed (u.inject created call) := by
  intro m hBit
  cases call with
  | mouseAbsolute x y => exact hBacked m hBit
  | mouseButton button down =>
      obtain ⟨hKeyboard, hState⟩ := inject_mouse u created (.mouseButton button down) trivial
      rw [hState] at hBit
      rw [hKeyboard]
      exact hBacked m hBit
  | mouseWheel delta => exact hBacked m hBit
  | key vk scancode down extended =>
      rw [Injector.inject, Injector.injectKey_bit] at hBit
      rw [Injector.inject, Injector.injectKey_held, Injector.injectKey_held]
      simp only [hDev, Bool.true_or, true_and]
      cases hCode : keycode scancode extended with
      | none =>
          rw [hCode] at hBit
          simpa using hBacked m hBit
      | some code =>
          simp only [hCode, Option.any_some, decide_eq_true_eq, Option.some.injEq] at hBit ⊢
          by_cases hCovers : m.Covers code
          · rw [if_pos hCovers] at hBit
            rcases hCovers with rfl | rfl
            · exact .inl (by rw [if_pos rfl, hBit])
            · exact .inr (by rw [if_pos rfl, hBit])
          · rw [if_neg hCovers] at hBit
            rw [if_neg fun h => hCovers (.inl h), if_neg fun h => hCovers (.inr h)]
            exact hBacked m hBit
  | setModifiers mask =>
      obtain ⟨-, hBits, hLeft, hOther⟩ := u.setModifiers_spec created mask
      rw [Injector.inject, hBits m] at hBit
      rw [Injector.inject, hLeft m, hOther m.rightCode (leftCode_ne_rightCode m)]
      by_cases hSame : hasBit u.modifierState m.bit = true
      · have hNoChange : ¬ ((u.keyboardDev || created) = true ∧ hasBit mask m.bit ≠ hasBit u.modifierState m.bit) :=
          fun h => h.2 (hBit.trans hSame.symm)
        rw [if_neg hNoChange]
        exact hBacked m hSame
      · left
        rw [if_pos ⟨by rw [hDev, Bool.true_or], fun hEq => hSame (hEq ▸ hBit)⟩]
        exact hBit

theorem backed_injectAll (calls : List (Bool × Injection)) :
    let u := Injector.injectAll { keyboardDev := true } calls
    u.keyboardDev = true ∧ Backed u := by
  induction calls using List.reverseRecOn with
  | nil =>
      refine ⟨rfl, fun m hBit => ?_⟩
      revert hBit
      cases m <;> decide
  | append_singleton calls call ih =>
      simp only [Injector.injectAll, List.foldl_append, List.foldl_cons, List.foldl_nil]
      exact ⟨inject_keyboardDev _ _ _ ih.1, backed_inject ih.1 ih.2 _ _⟩

/-- After every sequence of calls: a sync leaves exactly the modifiers of its
mask held if and only if none that it clears has its right key held, or its
left key held without its bit in the shadow. -/
theorem sync_authoritative_iff (calls : List (Bool × Injection)) (created : Bool) (mask : UInt8) :
    let u := Injector.injectAll { keyboardDev := true } calls
    let v := u.setModifiers created mask
    (∀ m : Modifier, Held v.keyboard m.leftCode ∨ Held v.keyboard m.rightCode ↔ hasBit mask m.bit = true) ↔
      ∀ m : Modifier, hasBit mask m.bit = false →
        ¬ Held u.keyboard m.rightCode ∧ (Held u.keyboard m.leftCode → hasBit u.modifierState m.bit = true) := by
  intro u v
  obtain ⟨hDev, hBacked⟩ := backed_injectAll calls
  obtain ⟨-, -, hLeft, hOther⟩ := u.setModifiers_spec created mask
  have hOn : (u.keyboardDev || created) = true := by rw [hDev, Bool.true_or]
  apply forall_congr'
  intro m
  rw [hLeft m, hOther m.rightCode (leftCode_ne_rightCode m)]
  simp only [hOn, true_and]
  cases hWant : hasBit mask m.bit with
  | true =>
      cases hIs : hasBit u.modifierState m.bit with
      | true =>
          have hHeld : Held u.keyboard m.leftCode ∨ Held u.keyboard m.rightCode := hBacked m hIs
          simp [hHeld]
      | false => simp
  | false =>
      cases hIs : hasBit u.modifierState m.bit with
      | true => simp
      | false =>
          simp
          tauto

/-- The right Shift key goes down, and a sync with an empty mask
leaves it down. -/
theorem sync_leaves_right_shift :
    ¬ ∀ (calls : List (Bool × Injection)) (created : Bool) (mask : UInt8) (m : Modifier),
      let v := (Injector.injectAll { keyboardDev := true } calls).setModifiers created mask
      (Held v.keyboard m.leftCode ∨ Held v.keyboard m.rightCode ↔ hasBit mask m.bit = true) := by
  intro hAll
  have hShift := hAll [(true, .key 0xA1 0x36 true false)] true 0 .shift
  revert hShift
  decide +kernel

end NoCapKVM.Input
