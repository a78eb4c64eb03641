import NoCapKVM.Discovery.NoisePrimitives
import NoCapKVM.Thread.Exchange

/-! `noise_ik.cpp`: the two sides of the Noise IK handshake, as programs over
the socket operations they perform. -/
namespace NoCapKVM.Discovery

open Thread

variable {Byte : Type}

/-- `recvAll` is answered with `none` when the peer has closed or the deadline
has passed. -/
inductive IkOp (Byte : Type) where
  | generateKeypair
  | sendAll (data : List Byte)
  | recvAll (len : Nat)

@[reducible] def IkAns : IkOp Byte → Type
  | .generateKeypair => Keypair Byte
  | .sendAll _ => Bool
  | .recvAll len => Option (Bytes Byte len)

abbrev IkProg (Byte : Type) := Prog (IkOp Byte) IkAns

namespace IkOp

def generate : IkProg Byte (Keypair Byte) := Prog.perform IkOp.generateKeypair

def send (data : List Byte) : IkProg Byte Bool := Prog.perform (IkOp.sendAll data)

def recv (len : Nat) : IkProg Byte (Option (Bytes Byte len)) := Prog.perform (IkOp.recvAll len)

end IkOp

/-- "Noise_IK_25519_ChaChaPoly_SHA256": exactly 32 bytes. -/
def kProtocolName : List UInt8 :=
  "Noise_IK_25519_ChaChaPoly_SHA256".toList.map fun c => c.toNat.toUInt8

def kMsg1Size : Nat := 96
def kMsg2Size : Nat := 48

/-- The result of a handshake that succeeded. A failed one is `none`. -/
structure IkResult (Byte : Type) where
  keys : TransportKeys Byte
  peerStatic : Key32 Byte

variable (na : Sodium Byte)

/-- The state both sides start from, after the pre-message. -/
def ikStart (responderStatic : Key32 Byte) : SymmetricState Byte :=
  mixHash na (initializeSymmetric na (kProtocolName.map na.byte)) responderStatic.val

/-- `run_ik_initiator` up to its `send_all`: the first message and the state
after it. -/
def ikWriteMsg1 (ownStatic : Keypair Byte) (peerStatic : Key32 Byte) (e : Keypair Byte) :
    Option (List Byte × SymmetricState Byte) := do
  let state := mixHash na (ikStart na peerStatic) e.publicKey.val
  let es ← dh na e.privateKey peerStatic
  let state := mixKey na state es
  let (ctS, state) := encryptAndHash na state ownStatic.publicKey.val
  let ss ← dh na ownStatic.privateKey peerStatic
  let state := mixKey na state ss
  let (ctPayload, state) := encryptAndHash na state []
  return (e.publicKey.val ++ ctS ++ ctPayload, state)

/-- `run_ik_initiator` from the received second message on. -/
def ikReadMsg2 (ownStatic : Keypair Byte) (peerStatic : Key32 Byte) (e : Keypair Byte)
    (state : SymmetricState Byte) (msg2 : Bytes Byte kMsg2Size) : Option (IkResult Byte) := do
  let re2 := msg2.slice 0 32 (by decide)
  let state := mixHash na state re2.val
  let ee ← dh na e.privateKey re2
  let state := mixKey na state ee
  let se ← dh na ownStatic.privateKey re2
  let state := mixKey na state se
  let (_, state) ← decryptAndHash na state (msg2.slice 32 16 (by decide)).val
  let (k1, k2) := split na state
  return { keys := { sendKey := k1, recvKey := k2 }, peerStatic := peerStatic }

def runIkInitiator (ownStatic : Keypair Byte) (peerStatic : Key32 Byte) :
    IkProg Byte (Option (IkResult Byte)) := do
  let e ← IkOp.generate
  let some (msg1, state) := ikWriteMsg1 na ownStatic peerStatic e | return none
  if !(← IkOp.send msg1) then return none
  let some msg2 ← IkOp.recv kMsg2Size | return none
  return ikReadMsg2 na ownStatic peerStatic e state msg2

/-- What the responder knows after the first message. -/
structure IkHello (Byte : Type) where
  re : Key32 Byte
  rsInitiator : Key32 Byte
  state : SymmetricState Byte

/-- `run_ik_responder` from the received first message to its
`generate_keypair`. -/
def ikReadMsg1 (ownStatic : Keypair Byte) (msg1 : Bytes Byte kMsg1Size) :
    Option (IkHello Byte) := do
  let re := msg1.slice 0 32 (by decide)
  let state := mixHash na (ikStart na ownStatic.publicKey) re.val
  let es ← dh na ownStatic.privateKey re
  let state := mixKey na state es
  let (rsBytes, state) ← decryptAndHash na state (msg1.slice 32 48 (by decide)).val
  if hRs : rsBytes.length = 32 then
    let ss ← dh na ownStatic.privateKey ⟨rsBytes, hRs⟩
    let state := mixKey na state ss
    let (_, state) ← decryptAndHash na state (msg1.slice 80 16 (by decide)).val
    return { re := re, rsInitiator := ⟨rsBytes, hRs⟩, state := state }
  else none

/-- `run_ik_responder` from its own ephemeral key on: the second message, and
the result if that message can be sent. -/
def ikWriteMsg2 (hello : IkHello Byte) (e2 : Keypair Byte) : Option (List Byte × IkResult Byte) := do
  let state := mixHash na hello.state e2.publicKey.val
  let ee ← dh na e2.privateKey hello.re
  let state := mixKey na state ee
  let se ← dh na e2.privateKey hello.rsInitiator
  let state := mixKey na state se
  let (ct2, state) := encryptAndHash na state []
  let (k1, k2) := split na state
  return (e2.publicKey.val ++ ct2,
    { keys := { sendKey := k2, recvKey := k1 }, peerStatic := hello.rsInitiator })

def runIkResponder (ownStatic : Keypair Byte) : IkProg Byte (Option (IkResult Byte)) := do
  let some msg1 ← IkOp.recv kMsg1Size | return none
  let some hello := ikReadMsg1 na ownStatic msg1 | return none
  let e2 ← IkOp.generate
  let some (msg2, result) := ikWriteMsg2 na hello e2 | return none
  if !(← IkOp.send msg2) then return none
  return some result

variable {na}

/-- The initiator, operation by operation. -/
theorem runIkInitiator_eq (own : Keypair Byte) (peer : Key32 Byte) :
    runIkInitiator na own peer = .op .generateKeypair fun e =>
      match ikWriteMsg1 na own peer e with
      | none => .ret none
      | some (msg1, state) => .op (.sendAll msg1) fun sent =>
          if sent then .op (.recvAll kMsg2Size) fun msg2 =>
            .ret (msg2.bind (ikReadMsg2 na own peer e state))
          else .ret none := by
  unfold runIkInitiator
  simp only [IkOp.generate, Prog.bind_def, Prog.perform_bind]
  congr 1
  funext e
  cases ikWriteMsg1 na own peer e with
  | none => rfl
  | some m =>
      simp only [IkOp.send, IkOp.recv, Prog.perform_bind]
      congr 1
      funext sent
      cases sent with
      | false => rfl
      | true =>
          simp only [Bool.not_true, Bool.false_eq_true, if_false, if_true]
          congr 1
          funext msg2
          cases msg2 <;> rfl

/-- The responder, operation by operation. -/
theorem runIkResponder_eq (own : Keypair Byte) :
    runIkResponder na own = .op (.recvAll kMsg1Size) fun msg1 =>
      match msg1.bind (ikReadMsg1 na own) with
      | none => .ret none
      | some hello => .op .generateKeypair fun e2 =>
          match ikWriteMsg2 na hello e2 with
          | none => .ret none
          | some (msg2, result) => .op (.sendAll msg2) fun sent =>
              .ret (if sent then some result else none) := by
  unfold runIkResponder
  simp only [IkOp.recv, Prog.bind_def, Prog.perform_bind]
  congr 1
  funext msg1
  cases msg1 with
  | none => rfl
  | some msg1 =>
      simp only [Option.bind_some]
      cases ikReadMsg1 na own msg1 with
      | none => rfl
      | some hello =>
          simp only [IkOp.generate, Prog.perform_bind]
          congr 1
          funext e2
          cases ikWriteMsg2 na hello e2 with
          | none => rfl
          | some m =>
              simp only [IkOp.send, Prog.perform_bind]
              congr 1
              funext sent
              cases sent <;> rfl

/-- A first message is the ephemeral key and two ciphertexts, made one after
the other. -/
theorem ikWriteMsg1_some (hAead : na.AeadContract) {own e : Keypair Byte} {peer : Key32 Byte}
    {msg1 : List Byte} {state : SymmetricState Byte}
    (h : ikWriteMsg1 na own peer e = some (msg1, state)) :
    ∃ es ss ctS ctPayload state₁,
      dh na e.privateKey peer = some es ∧ dh na own.privateKey peer = some ss ∧
      encryptAndHash na (mixKey na (mixHash na (ikStart na peer) e.publicKey.val) es)
        own.publicKey.val = (ctS, state₁) ∧
      encryptAndHash na (mixKey na state₁ ss) [] = (ctPayload, state) ∧
      msg1 = e.publicKey.val ++ ctS ++ ctPayload ∧ ctS.length = 48 ∧ ctPayload.length = 16 := by
  simp only [ikWriteMsg1, Option.bind_eq_bind, Option.bind_eq_some_iff, Option.pure_def,
    Option.some.injEq, Prod.mk.injEq] at h
  obtain ⟨es, hEs, ss, hSs, rfl, rfl⟩ := h
  refine ⟨es, ss, _, _, _, hEs, hSs, rfl, rfl, rfl, ?_, ?_⟩
  · rw [encryptAndHash_length hAead (mixKey_hasKey na _ es) rfl, own.publicKey.property]
  · exact encryptAndHash_length hAead (mixKey_hasKey na _ ss) rfl

theorem ikWriteMsg2_some (hAead : na.AeadContract) {hello : IkHello Byte} {e2 : Keypair Byte}
    {msg2 : List Byte} {result : IkResult Byte}
    (h : ikWriteMsg2 na hello e2 = some (msg2, result)) :
    ∃ ee se ct2 state₂,
      dh na e2.privateKey hello.re = some ee ∧ dh na e2.privateKey hello.rsInitiator = some se ∧
      encryptAndHash na (mixKey na (mixKey na (mixHash na hello.state e2.publicKey.val) ee) se) [] =
        (ct2, state₂) ∧
      msg2 = e2.publicKey.val ++ ct2 ∧ ct2.length = 16 ∧
      result = ⟨⟨(split na state₂).2, (split na state₂).1⟩, hello.rsInitiator⟩ := by
  simp only [ikWriteMsg2, Option.bind_eq_bind, Option.bind_eq_some_iff, Option.pure_def,
    Option.some.injEq, Prod.mk.injEq] at h
  obtain ⟨ee, hEe, se, hSe, rfl, rfl⟩ := h
  exact ⟨ee, se, _, _, hEe, hSe, rfl, rfl,
    encryptAndHash_length hAead (mixKey_hasKey na _ se) rfl, rfl⟩

theorem ikWriteMsg1_length (hAead : na.AeadContract) {own e : Keypair Byte} {peer : Key32 Byte}
    {msg1 : List Byte} {state : SymmetricState Byte}
    (h : ikWriteMsg1 na own peer e = some (msg1, state)) : msg1.length = kMsg1Size := by
  obtain ⟨es, ss, ctS, ctPayload, state₁, -, -, -, -, rfl, hS, hPayload⟩ := ikWriteMsg1_some hAead h
  rw [List.length_append, List.length_append, e.publicKey.property, hS, hPayload]
  rfl

theorem ikWriteMsg2_length (hAead : na.AeadContract) {hello : IkHello Byte} {e2 : Keypair Byte}
    {msg2 : List Byte} {result : IkResult Byte}
    (h : ikWriteMsg2 na hello e2 = some (msg2, result)) : msg2.length = kMsg2Size := by
  obtain ⟨ee, se, ct2, state₂, -, -, -, rfl, hCt, -⟩ := ikWriteMsg2_some hAead h
  rw [List.length_append, e2.publicKey.property, hCt]
  rfl

end NoCapKVM.Discovery
