import NoCapKVM.Discovery.Sodium

/-! `noise_primitives.cpp`: the symmetric state of the Noise handshake. -/
namespace NoCapKVM.Discovery

variable {Byte : Type} (na : Sodium Byte)

/-- `Key32{}` -/
def zeroKey : Key32 Byte :=
  Bytes.fill 32 (na.byte 0)

/-- Noise's two-output HKDF over HMAC-SHA256. -/
def hkdf2 (chainingKey : Key32 Byte) (ikm : List Byte) : Key32 Byte × Key32 Byte :=
  let tempKey := na.hmacsha256 ikm chainingKey
  let out1 := na.hmacsha256 [na.byte 0x01] tempKey
  let out2 := na.hmacsha256 (out1.val ++ [na.byte 0x02]) tempKey
  (out1, out2)

/-- Four zero bytes and the counter, least significant byte first. -/
def nonceBytes (nonceCounter : UInt64) : List UInt8 :=
  List.replicate 4 (0 : UInt8) ++ (List.range 8).map fun i => (nonceCounter >>> (8 * i.toUInt64)).toUInt8

def dh (ownPrivate peerPublic : Key32 Byte) : Option (Key32 Byte) :=
  na.scalarmult ownPrivate peerPublic

structure SymmetricState (Byte : Type) where
  h : Key32 Byte
  ck : Key32 Byte
  k : Key32 Byte
  hasKey : Bool
  n : UInt64

def initializeSymmetric (protocolName : List Byte) : SymmetricState Byte :=
  let h : Key32 Byte :=
    if hLen : protocolName.length ≤ 32 then
      ⟨protocolName ++ List.replicate (32 - protocolName.length) (na.byte 0), by simp; omega⟩
    else na.sha256 protocolName
  { h := h, ck := h, k := zeroKey na, hasKey := false, n := 0 }

def mixHash (state : SymmetricState Byte) (data : List Byte) : SymmetricState Byte :=
  { state with h := na.sha256 (state.h.val ++ data) }

def mixKey (state : SymmetricState Byte) (inputKeyMaterial : Key32 Byte) : SymmetricState Byte :=
  let (newCk, tempK) := hkdf2 na state.ck inputKeyMaterial.val
  { state with ck := newCk, k := tempK, hasKey := true, n := 0 }

def aeadEncrypt (key : Key32 Byte) (nonceCounter : UInt64) (ad plaintext : List Byte) : List Byte :=
  na.aeadEncrypt plaintext ad (nonceBytes nonceCounter) key

def aeadDecrypt (key : Key32 Byte) (nonceCounter : UInt64) (ad ciphertext : List Byte) :
    Option (List Byte) :=
  na.aeadDecrypt ciphertext ad (nonceBytes nonceCounter) key

/-- The ciphertext put on the wire, and the state that has absorbed it. -/
def encryptAndHash (state : SymmetricState Byte) (plaintext : List Byte) :
    List Byte × SymmetricState Byte :=
  let (ct, state) :=
    if state.hasKey then
      (aeadEncrypt na state.k state.n state.h.val plaintext, { state with n := state.n + 1 })
    else (plaintext, state)
  (ct, mixHash na state ct)

def decryptAndHash (state : SymmetricState Byte) (ciphertext : List Byte) :
    Option (List Byte × SymmetricState Byte) :=
  if state.hasKey then do
    let out ← aeadDecrypt na state.k state.n state.h.val ciphertext
    return (out, mixHash na { state with n := state.n + 1 } ciphertext)
  else some (ciphertext, mixHash na state ciphertext)

def split (state : SymmetricState Byte) : Key32 Byte × Key32 Byte :=
  hkdf2 na state.ck []

@[simp] theorem mixKey_hasKey (state : SymmetricState Byte) (ikm : Key32 Byte) :
    (mixKey na state ikm).hasKey = true := rfl

@[simp] theorem mixHash_hasKey (state : SymmetricState Byte) (data : List Byte) :
    (mixHash na state data).hasKey = state.hasKey := rfl

variable {na}

/-- What one side encrypts, the other side decrypts from the same state, and
both end in the same state. -/
theorem decryptAndHash_encryptAndHash (hAead : na.AeadContract) {state state' : SymmetricState Byte}
    {plaintext ct : List Byte} (h : encryptAndHash na state plaintext = (ct, state')) :
    decryptAndHash na state ct = some (plaintext, state') := by
  unfold encryptAndHash at h
  cases hKey : state.hasKey with
  | false =>
      simp only [hKey, Bool.false_eq_true, if_false, Prod.mk.injEq] at h
      obtain ⟨rfl, rfl⟩ := h
      simp only [decryptAndHash, hKey, Bool.false_eq_true, if_false]
  | true =>
      simp only [hKey, if_true, Prod.mk.injEq] at h
      obtain ⟨rfl, rfl⟩ := h
      simp [decryptAndHash, hKey, aeadDecrypt, aeadEncrypt, hAead.decrypt_encrypt]

theorem encryptAndHash_length (hAead : na.AeadContract) {state state' : SymmetricState Byte}
    {plaintext ct : List Byte} (hKey : state.hasKey = true)
    (h : encryptAndHash na state plaintext = (ct, state')) : ct.length = plaintext.length + 16 := by
  simp only [encryptAndHash, hKey, if_true, Prod.mk.injEq] at h
  obtain ⟨rfl, -⟩ := h
  exact hAead.encrypt_length _ _ _ _

end NoCapKVM.Discovery
