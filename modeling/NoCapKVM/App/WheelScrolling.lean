import Mathlib.Algebra.Ring.Int.Defs
import NoCapKVM.App.EventOrder
import NoCapKVM.Input.HeldKeys

/-! How far a Linux Slave scrolls for the wheel turns that Master forwards to it. -/
namespace NoCapKVM.App

open Input

/-- The wheel turn that a message carries to the Slave. -/
def Effect.wheel? : Effect → Option Int16
  | .sendInput msgType payload => if msgType = kMsgMouseWheel then decodeMouseWheel payload else none
  | _ => none

/-- The messages as the Slave injects them. Each comes with whether a missing
device can be created at that moment. -/
def injections (messages : List (Bool × Effect)) : List TimedCall :=
  messages.filterMap fun m => m.2.injection?.map (m.1, ·)

/-- The sum of the turns that the messages carry. -/
def turned (messages : List (Bool × Effect)) : Int :=
  (messages.filterMap fun m => m.2.wheel?.map Int16.toInt).sum

/-- The sum of the values that were written for `REL_WHEEL`. -/
def scrolled (written : List UinputEvent) : Int :=
  ((written.filter fun e => e.type = kEvRel && e.code = kRelWheel).map fun e => e.value.toInt).sum

/-- What one call leaves over: the part of a notch while the device exists,
and the whole turn while it cannot be created. -/
def leftOver (dev : Bool) : Injection → Int
  | .mouseWheel delta => if dev then delta.toInt.tmod 120 else delta.toInt
  | _ => 0

/-- What all calls leave over. -/
def unscrolled (dev : Bool) : List TimedCall → Int
  | [] => 0
  | call :: calls =>
      let dev := dev || !IsKeyboard call.2 && call.1
      leftOver dev call.2 + unscrolled dev calls

def Injection.turn : Injection → Int
  | .mouseWheel delta => delta.toInt
  | _ => 0

theorem notches_toInt (delta : Int16) : (delta / 120).toInt32.toInt = delta.toInt.tdiv 120 := by
  have hNe : (120 : Int16) ≠ -1 := by decide
  rw [Int16.toInt_toInt32, Int16.toInt_div_of_ne_right delta 120 hNe]
  rfl

theorem scrolled_wheel (dev : Bool) (written : List UinputEvent) (value : Int32) :
    scrolled (emit dev written kEvRel kRelWheel value) = scrolled written + if dev then value.toInt else 0 := by
  cases dev <;> simp [emit, scrolled]

theorem scrolled_other (dev : Bool) (written : List UinputEvent) {type : UInt16} (hType : type ≠ kEvRel)
    (code : UInt16) (value : Int32) : scrolled (emit dev written type code value) = scrolled written := by
  cases dev <;> simp [emit, scrolled, hType]

/-- What a call scrolls and what it leaves over make up its turn. -/
theorem scrolled_inject (u : Injector) (created : Bool) (call : Injection) :
    120 * scrolled (u.inject created call).mouse + leftOver (u.inject created call).mouseDev call =
      120 * scrolled u.mouse + Injection.turn call := by
  have hKey : kEvKey ≠ kEvRel := by decide
  have hAbs : kEvAbs ≠ kEvRel := by decide
  have hSyn : kEvSyn ≠ kEvRel := by decide
  cases call with
  | mouseWheel delta =>
      have hDivision := Int.mul_tdiv_add_tmod delta.toInt 120
      have hScrolled : scrolled (u.inject created (.mouseWheel delta)).mouse =
          scrolled u.mouse + if u.mouseDev || created then delta.toInt.tdiv 120 else 0 := by
        simp only [Injector.inject, Injector.injectMouseWheel, Injector.emitMouse, Injector.ensureMouseDev,
          scrolled_other _ _ hSyn, scrolled_wheel, notches_toInt]
      have hDev : (u.inject created (.mouseWheel delta)).mouseDev = (u.mouseDev || created) := rfl
      rw [hScrolled, hDev, leftOver, Injection.turn]
      split <;> omega
  | mouseAbsolute x y =>
      simp only [Injector.inject, Injector.injectMouseAbsolute, Injector.emitMouse, Injector.ensureMouseDev,
        scrolled_other _ _ hSyn, scrolled_other _ _ hAbs, leftOver, Injection.turn]
  | mouseButton button down =>
      simp only [Injector.inject, Injector.injectMouseButton]
      cases Injector.buttonCode button with
      | none => rfl
      | some code =>
          simp only [Injector.emitMouse, Injector.ensureMouseDev, scrolled_other _ _ hSyn, scrolled_other _ _ hKey,
            leftOver, Injection.turn]
  | key vk scancode down extended =>
      rw [Injector.inject, (u.injectKey_mouse created scancode down extended).1]
      rfl
  | setModifiers mask =>
      rw [Injector.inject, (u.setModifiers_mouse created mask).1]
      rfl

theorem scrolled_injectAll (u : Injector) (calls : List TimedCall) :
    120 * scrolled (u.injectAll calls).mouse + unscrolled u.mouseDev calls =
      120 * scrolled u.mouse + (calls.map fun c => Injection.turn c.2).sum := by
  induction calls generalizing u with
  | nil => rfl
  | cons call calls ih =>
      have hFirst := scrolled_inject u call.1 call.2
      have hRest := ih (u.inject call.1 call.2)
      have hDev : (u.inject call.1 call.2).mouseDev = (u.mouseDev || !IsKeyboard call.2 && call.1) :=
        (u.inject_devs call.1 call.2).2
      rw [hDev] at hFirst hRest
      have hAll : u.injectAll (call :: calls) = (u.inject call.1 call.2).injectAll calls := rfl
      rw [hAll, unscrolled, List.map_cons, List.sum_cons]
      omega

/-- A message is injected as a turn just if it carries one. -/
theorem injection_turn (e : Effect) :
    (e.injection?.map Injection.turn).getD 0 = (e.wheel?.map Int16.toInt).getD 0 := by
  cases e with
  | sendInput msgType payload =>
      simp only [Effect.injection?, Effect.wheel?, dispatchInputMessage]
      by_cases hWheel : msgType = kMsgMouseWheel
      · subst hWheel
        rw [if_neg (by decide), if_neg (by decide), if_pos rfl, if_pos rfl, Option.map_map]
        rfl
      · rw [if_neg hWheel, if_neg hWheel]
        split
        · cases decodeMouseAbsolute payload <;> rfl
        split
        · cases decodeMouseButton payload <;> rfl
        split
        · cases decodeKey payload <;> rfl
        split
        · cases decodeModifierSync payload <;> rfl
        · rfl
  | inject call => rfl
  | setCursorPos x y => rfl
  | disconnectCurrent => rfl

theorem turned_injections (messages : List (Bool × Effect)) :
    ((injections messages).map fun c => Injection.turn c.2).sum = turned messages := by
  induction messages with
  | nil => rfl
  | cons m messages ih =>
      have hCalls : ((injections (m :: messages)).map fun c => Injection.turn c.2).sum =
          (m.2.injection?.map Injection.turn).getD 0 + ((injections messages).map fun c => Injection.turn c.2).sum := by
        cases hCall : m.2.injection? <;> simp [injections, hCall]
      have hTurns : turned (m :: messages) = (m.2.wheel?.map Int16.toInt).getD 0 + turned messages := by
        cases hTurn : m.2.wheel? <;> simp [turned, hTurn]
      rw [hCalls, hTurns, injection_turn, ih]

/-- After every prefix of the messages less than a notch is missing, just if
what the calls leave over has never added up to one. -/
theorem scrolling_kept_iff (u : Injector) (messages : List (Bool × Effect)) :
    (∀ sent, sent <+: messages →
      (turned sent - 120 * (scrolled (u.injectAll (injections sent)).mouse - scrolled u.mouse)).natAbs < 120) ↔
      ∀ sent, sent <+: messages → (unscrolled u.mouseDev (injections sent)).natAbs < 120 := by
  have hLeft : ∀ sent, turned sent - 120 * (scrolled (u.injectAll (injections sent)).mouse - scrolled u.mouse) =
      unscrolled u.mouseDev (injections sent) := by
    intro sent
    have hAll := scrolled_injectAll u (injections sent)
    rw [turned_injections] at hAll
    omega
  simp only [hLeft]

/-- Two turns by half a notch do not scroll. -/
theorem half_notches_lost :
    ¬∀ (u : Injector) (deltas : List Int16), u.mouseDev = true →
      ∀ sent, sent <+: deltas.map (fun delta => (true, sendMouseWheel delta)) →
        (turned sent - 120 * (scrolled (u.injectAll (injections sent)).mouse - scrolled u.mouse)).natAbs < 120 := by
  intro hKept
  have hHalves := hKept { mouseDev := true } [60, 60] rfl [(true, sendMouseWheel 60), (true, sendMouseWheel 60)]
    (List.prefix_refl _)
  exact absurd hHalves (by decide +kernel)

end NoCapKVM.App
