import NoCapKVM.Discovery.Sodium

/-! A small instance of libsodium's interface on bytes. It keeps the contract
of the AEAD and hides nothing. -/
namespace NoCapKVM.Discovery

/-- The first bytes of some data, filled up with zeros. -/
def fit (n : Nat) (data : List UInt8) : Bytes UInt8 n :=
  ⟨(data ++ List.replicate n 0).take n, by simp⟩

/-- Twelve bytes of the nonce and four of the key. -/
def plainTag (nonce : List UInt8) (key : Key32 UInt8) : Bytes UInt8 16 :=
  fit 16 ((fit 12 nonce).val ++ key.val)

def plainEncrypt (plaintext _ad nonce : List UInt8) (key : Key32 UInt8) : List UInt8 :=
  plaintext ++ (plainTag nonce key).val

def plainDecrypt (ciphertext ad nonce : List UInt8) (key : Key32 UInt8) : Option (List UInt8) :=
  let plaintext := ciphertext.take (ciphertext.length - 16)
  if ciphertext = plainEncrypt plaintext ad nonce key then some plaintext else none

def plainSodium : Sodium UInt8 where
  byte b := b
  sha256 data := fit 32 data
  hmacsha256 message key := fit 32 (message ++ key.val)
  genericHash data := fit 32 data
  publicKey privateKey := privateKey
  scalarmult a b := some (fit 32 (List.zipWith (· + ·) a.val b.val))
  aeadEncrypt := plainEncrypt
  aeadDecrypt := plainDecrypt

def plainKeypair (seed : UInt8) : Keypair UInt8 :=
  ⟨Bytes.fill 32 seed, Bytes.fill 32 seed⟩

theorem plainEncrypt_length (plaintext ad nonce : List UInt8) (key : Key32 UInt8) :
    (plainEncrypt plaintext ad nonce key).length = plaintext.length + 16 := by
  rw [plainEncrypt, List.length_append, (plainTag nonce key).property]

theorem plainDecrypt_plainEncrypt (plaintext ad nonce : List UInt8) (key : Key32 UInt8) :
    plainDecrypt (plainEncrypt plaintext ad nonce key) ad nonce key = some plaintext := by
  have hTake : (plainEncrypt plaintext ad nonce key).take
      ((plainEncrypt plaintext ad nonce key).length - 16) = plaintext := by
    rw [plainEncrypt_length, Nat.add_sub_cancel, plainEncrypt, List.take_left]
  simp only [plainDecrypt, hTake, if_true]

theorem plainSodium_contract : plainSodium.Contract where
  decrypt_encrypt := plainDecrypt_plainEncrypt
  encrypt_length := plainEncrypt_length
  decrypt_length := by
    intro ciphertext ad nonce key plaintext h
    simp only [plainSodium, plainDecrypt] at h
    split at h
    · next hCt =>
        have hLen := congrArg List.length hCt
        rw [plainEncrypt_length, Option.some.inj h] at hLen
        exact hLen.symm
    · cases h
  dh_comm := by
    intro a b
    simp only [plainSodium, List.zipWith_comm_of_comm (UInt8.add_comm)]

end NoCapKVM.Discovery
