import NoCapKVM.Discovery.LostLink

/-! What the input messages of a Master mean to the Slave that receives them. -/
namespace NoCapKVM.Discovery.InputDispatch

open Thread TcpClient Input LostLink

/-- The message that the Master sends for a call on the Slave. -/
def message : Injection → UInt8 × List UInt8
  | .mouseAbsolute x y => (kMsgMouseAbsolute, encodeMouseAbsolute x y)
  | .mouseButton button down => (kMsgMouseButton, encodeMouseButton button down)
  | .mouseWheel delta => (kMsgMouseWheel, encodeMouseWheel delta)
  | .key vk scancode down extended => (kMsgKey, encodeKey vk scancode down extended)
  | .setModifiers mask => (kMsgModifierSync, encodeModifierSync mask)

section Kinds

variable (payload : List UInt8)

theorem dispatch_mouseAbsolute : dispatchInputMessage kMsgMouseAbsolute payload =
    (decodeMouseAbsolute payload).map fun (x, y) => .mouseAbsolute x y := rfl

theorem dispatch_mouseButton : dispatchInputMessage kMsgMouseButton payload =
    (decodeMouseButton payload).map fun (button, down) => .mouseButton button down := rfl

theorem dispatch_mouseWheel : dispatchInputMessage kMsgMouseWheel payload =
    (decodeMouseWheel payload).map .mouseWheel := rfl

theorem dispatch_key : dispatchInputMessage kMsgKey payload =
    (decodeKey payload).map fun (vk, scancode, down, extended) => .key vk scancode down extended := rfl

theorem dispatch_modifierSync : dispatchInputMessage kMsgModifierSync payload =
    (decodeModifierSync payload).map .setModifiers := rfl

end Kinds

theorem dispatch_message (call : Injection) (rest : List UInt8) :
    dispatchInputMessage (message call).1 ((message call).2 ++ rest) = some call := by
  cases call with
  | mouseAbsolute x y => rw [message, dispatch_mouseAbsolute, decodeMouseAbsolute_append, Option.map_some]
  | mouseButton button down => rw [message, dispatch_mouseButton, decodeMouseButton_append, Option.map_some]
  | mouseWheel delta => rw [message, dispatch_mouseWheel, decodeMouseWheel_append, Option.map_some]
  | key vk scancode down extended => rw [message, dispatch_key, decodeKey_append, Option.map_some]
  | setModifiers mask => rw [message, dispatch_modifierSync, decodeModifierSync_append, Option.map_some]

/-- The format of a kind has the length of what is encoded for it. -/
theorem dispatch_short (call : Injection) {payload : List UInt8} (h : payload.length < (message call).2.length) :
    dispatchInputMessage (message call).1 payload = none := by
  cases call with
  | mouseAbsolute x y => rw [message, dispatch_mouseAbsolute, decodeMouseAbsolute_short h, Option.map_none]
  | mouseButton button down => rw [message, dispatch_mouseButton, decodeMouseButton_short h, Option.map_none]
  | mouseWheel delta => rw [message, dispatch_mouseWheel, decodeMouseWheel_short h, Option.map_none]
  | key vk scancode down extended => rw [message, dispatch_key, decodeKey_short h, Option.map_none]
  | setModifiers mask => rw [message, dispatch_modifierSync, decodeModifierSync_short h, Option.map_none]

/-- No call is encoded under the type. -/
def IsOtherType (msgType : UInt8) : Prop := ∀ call, msgType ≠ (message call).1

theorem dispatch_other {msgType : UInt8} (h : IsOtherType msgType) (payload : List UInt8) :
    dispatchInputMessage msgType payload = none := by
  have hAbsolute : msgType ≠ kMsgMouseAbsolute := h (.mouseAbsolute 0 0)
  have hButton : msgType ≠ kMsgMouseButton := h (.mouseButton 0 false)
  have hWheel : msgType ≠ kMsgMouseWheel := h (.mouseWheel 0)
  have hKey : msgType ≠ kMsgKey := h (.key 0 0 false false)
  have hModifiers : msgType ≠ kMsgModifierSync := h (.setModifiers 0)
  simp only [dispatchInputMessage, hAbsolute, hButton, hWheel, hKey, hModifiers, if_false]

/-- An encoded call, whatever follows it in the payload, is made by the
dispatcher and by the loop, and nothing else is. A payload that is too short
and a message of another type lead to no call. So the calls of an attempt are
those of the messages it has received. -/
theorem input_messages_agree :
    (∀ call rest link, dispatchInputMessage (message call).1 ((message call).2 ++ rest) = some call ∧
      dispatch link (message call).1 ((message call).2 ++ rest) = (do Prog.perform (Op.inject call); return link)) ∧
    (∀ call payload link, payload.length < (message call).2.length →
      dispatchInputMessage (message call).1 payload = none ∧ (dispatch link (message call).1 payload).Uses IsAside) ∧
    (∀ msgType payload link, IsOtherType msgType →
      dispatchInputMessage msgType payload = none ∧ (dispatch link msgType payload).Uses IsAside) ∧
    ∀ {Act S : Type} (sys : System Op Ans Act S) (na : Sodium UInt8) (c : TcpClient) (init s : S)
      (past : List (Label Op Ans Act)) (outcome : AttemptOutcome),
      Run sys (runOnce na c) init past (.ret outcome) s → injected past = requested (received past) := by
  refine ⟨?_, ?_, ?_, ?_⟩
  · intro call rest link
    have hCall := dispatch_message call rest
    exact ⟨hCall, dispatch_call link hCall⟩
  · intro call payload link hShort
    have hNone := dispatch_short call hShort
    exact ⟨hNone, dispatch_aside link hNone⟩
  · intro msgType payload link hOther
    have hNone := dispatch_other hOther payload
    exact ⟨hNone, dispatch_aside link hNone⟩
  · intro Act S sys na c init s past outcome hRun
    have hAll : injected past ++ [] = requested (received past) := (runOnce_safe na c init).result hRun
    rwa [List.append_nil] at hAll

end NoCapKVM.Discovery.InputDispatch
