import Mathlib.Data.List.Basic

/-! The functions of libsodium that the program calls. The alphabet `Byte` is a
parameter: the program runs at `UInt8`, and a symbolic model, where hashing is
injective, needs an infinite alphabet. -/
namespace NoCapKVM.Discovery

/-- A fixed-size array of the source. -/
abbrev Bytes (Byte : Type) (n : Nat) := { data : List Byte // data.length = n }

abbrev Key32 (Byte : Type) := Bytes Byte 32

def Bytes.fill {Byte : Type} (n : Nat) (b : Byte) : Bytes Byte n :=
  ⟨List.replicate n b, List.length_replicate ..⟩

/-- The array that starts at `offset` inside a larger one. -/
def Bytes.slice {Byte : Type} {n : Nat} (b : Bytes Byte n) (offset len : Nat)
    (h : offset + len ≤ n) : Bytes Byte len :=
  ⟨(b.val.drop offset).take len, by
    rw [List.length_take, List.length_drop, b.property]
    omega⟩

@[simp] theorem Bytes.slice_val {Byte : Type} {n : Nat} (b : Bytes Byte n) (offset len : Nat)
    (h : offset + len ≤ n) : (b.slice offset len h).val = (b.val.drop offset).take len := rfl

/-- The value of a one-byte buffer. -/
def Bytes.only {Byte : Type} (b : Bytes Byte 1) : Byte :=
  b.val.head (by
    intro hNil
    have hLen := b.property
    rw [hNil] at hLen
    cases hLen)

theorem Bytes.only_cons {Byte : Type} (b : Bytes Byte 1) (rest : List Byte) :
    b.val ++ rest = b.only :: rest := by
  obtain ⟨data, hLen⟩ := b
  obtain ⟨x, rfl⟩ := List.length_eq_one_iff.mp hLen
  rfl

/-- A piece of a concatenation, read back at its place. -/
theorem Bytes.slice_eq {Byte : Type} {n : Nat} {b : Bytes Byte n} {offset len : Nat}
    {piece : List Byte} (front back : List Byte) (h : offset + len ≤ n)
    (hFront : front.length = offset) (hPiece : piece.length = len)
    (hB : b.val = front ++ piece ++ back) :
    b.slice offset len h = ⟨piece, hPiece⟩ := by
  apply Subtype.ext
  rw [Bytes.slice_val, hB, List.append_assoc, List.drop_left' hFront, List.take_left' hPiece]

structure Keypair (Byte : Type) where
  publicKey : Key32 Byte
  privateKey : Key32 Byte

structure TransportKeys (Byte : Type) where
  sendKey : Key32 Byte
  recvKey : Key32 Byte

/-- libsodium as a parameter. `byte` embeds the constants of the source.
`none` stands for a failing return code. -/
structure Sodium (Byte : Type) where
  byte : UInt8 → Byte
  sha256 : List Byte → Key32 Byte
  hmacsha256 : (message : List Byte) → (key : Key32 Byte) → Key32 Byte
  genericHash : List Byte → Key32 Byte
  /-- `crypto_box_keypair`'s public key for a private key. -/
  publicKey : Key32 Byte → Key32 Byte
  scalarmult : (privateKey publicKey : Key32 Byte) → Option (Key32 Byte)
  aeadEncrypt : (plaintext ad : List Byte) → (nonce : List UInt8) → (key : Key32 Byte) → List Byte
  aeadDecrypt : (ciphertext ad : List Byte) → (nonce : List UInt8) → (key : Key32 Byte) →
    Option (List Byte)

variable {Byte : Type}

/-- The documented contract of the AEAD: decryption undoes encryption, and a
ciphertext is 16 bytes longer than its plaintext. -/
structure Sodium.AeadContract (na : Sodium Byte) : Prop where
  decrypt_encrypt : ∀ plaintext ad nonce key,
    na.aeadDecrypt (na.aeadEncrypt plaintext ad nonce key) ad nonce key = some plaintext
  encrypt_length : ∀ plaintext ad nonce key,
    (na.aeadEncrypt plaintext ad nonce key).length = plaintext.length + 16
  decrypt_length : ∀ ciphertext ad nonce key plaintext,
    na.aeadDecrypt ciphertext ad nonce key = some plaintext → plaintext.length + 16 = ciphertext.length

/-- Both sides of a key agreement get the same secret. -/
structure Sodium.Contract (na : Sodium Byte) : Prop extends na.AeadContract where
  dh_comm : ∀ a b, na.scalarmult a (na.publicKey b) = na.scalarmult b (na.publicKey a)

/-- Symbolic cryptography. A ciphertext decrypts only under what it was made
with, and hashes do not collide. -/
structure Sodium.Symbolic (na : Sodium Byte) : Prop extends na.Contract where
  decrypt_exact : ∀ {plaintext plaintext' ad ad' nonce nonce' key key'},
    na.aeadDecrypt (na.aeadEncrypt plaintext ad nonce key) ad' nonce' key' = some plaintext' →
      ad = ad' ∧ nonce = nonce' ∧ key = key' ∧ plaintext = plaintext'
  sha256_injective : Function.Injective na.sha256

def Keypair.Genuine (na : Sodium Byte) (k : Keypair Byte) : Prop :=
  k.publicKey = na.publicKey k.privateKey

end NoCapKVM.Discovery
