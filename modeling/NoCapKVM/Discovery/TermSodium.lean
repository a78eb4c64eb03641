import NoCapKVM.Discovery.Sodium
import Mathlib.Logic.Equiv.List

/-! libsodium on terms. A hash is the code of its input, and a tag is the code of
everything that the ciphertext was made with. -/
namespace NoCapKVM.Discovery

/-- One code, padded to a fixed size. -/
def pad (len code : Nat) : Bytes Nat (len + 1) :=
  ⟨code :: List.replicate len 0, by simp⟩

theorem pad_injective (len : Nat) : Function.Injective (pad len) := by
  intro a b h
  exact (List.cons.inj (congrArg Subtype.val h)).1

def termTag (plaintext ad : List Nat) (nonce : List UInt8) (key : Key32 Nat) : Bytes Nat 16 :=
  pad 15 (Encodable.encode (plaintext, ad, nonce.map UInt8.toNat, key.val))

theorem termTag_inj {plaintext plaintext' ad ad' : List Nat} {nonce nonce' : List UInt8}
    {key key' : Key32 Nat} (h : termTag plaintext ad nonce key = termTag plaintext' ad' nonce' key') :
    plaintext = plaintext' ∧ ad = ad' ∧ nonce = nonce' ∧ key = key' := by
  have hCode := Encodable.encode_injective (pad_injective 15 h)
  simp only [Prod.mk.injEq] at hCode
  obtain ⟨hPlaintext, hAd, hNonce, hKey⟩ := hCode
  exact ⟨hPlaintext, hAd, List.map_injective_iff.mpr (fun _ _ => UInt8.toNat.inj) hNonce, Subtype.ext hKey⟩

def termEncrypt (plaintext ad : List Nat) (nonce : List UInt8) (key : Key32 Nat) : List Nat :=
  plaintext ++ (termTag plaintext ad nonce key).val

def termDecrypt (ciphertext ad : List Nat) (nonce : List UInt8) (key : Key32 Nat) :
    Option (List Nat) :=
  let plaintext := ciphertext.take (ciphertext.length - 16)
  if ciphertext = termEncrypt plaintext ad nonce key then some plaintext else none

/-- A secret is the sum of two private keys, and a key is its
own public key. -/
def termSodium : Sodium Nat where
  byte := UInt8.toNat
  sha256 data := pad 31 (Encodable.encode data)
  hmacsha256 message key := pad 31 (Encodable.encode (message, key.val))
  genericHash data := pad 31 (Encodable.encode data)
  publicKey privateKey := privateKey
  scalarmult a b := some ⟨List.zipWith (· + ·) a.val b.val, by simp [a.property, b.property]⟩
  aeadEncrypt := termEncrypt
  aeadDecrypt := termDecrypt

def termKeypair (seed : Nat) : Keypair Nat :=
  ⟨pad 31 seed, pad 31 seed⟩

theorem termEncrypt_length (plaintext ad : List Nat) (nonce : List UInt8) (key : Key32 Nat) :
    (termEncrypt plaintext ad nonce key).length = plaintext.length + 16 := by
  rw [termEncrypt, List.length_append, (termTag plaintext ad nonce key).property]

theorem termDecrypt_termEncrypt (plaintext ad : List Nat) (nonce : List UInt8) (key : Key32 Nat) :
    termDecrypt (termEncrypt plaintext ad nonce key) ad nonce key = some plaintext := by
  have hTake : (termEncrypt plaintext ad nonce key).take
      ((termEncrypt plaintext ad nonce key).length - 16) = plaintext := by
    rw [termEncrypt_length, Nat.add_sub_cancel, termEncrypt, List.take_left]
  simp only [termDecrypt, hTake, if_true]

theorem termDecrypt_some {ciphertext ad plaintext : List Nat} {nonce : List UInt8} {key : Key32 Nat}
    (h : termDecrypt ciphertext ad nonce key = some plaintext) :
    ciphertext = termEncrypt plaintext ad nonce key := by
  simp only [termDecrypt] at h
  split at h
  · next hCt =>
      rw [← Option.some.inj h]
      exact hCt
  · cases h

/-- The term model has all the symbolic properties. -/
theorem termSodium_symbolic : termSodium.Symbolic where
  decrypt_encrypt := termDecrypt_termEncrypt
  encrypt_length := termEncrypt_length
  decrypt_length := by
    intro ciphertext ad nonce key plaintext h
    rw [termDecrypt_some h, termEncrypt_length]
  dh_comm := by
    intro a b
    simp only [termSodium, Option.some.injEq, Subtype.mk.injEq]
    exact List.zipWith_comm_of_comm Nat.add_comm
  decrypt_exact := by
    intro plaintext plaintext' ad ad' nonce nonce' key key' h
    have hEq := termDecrypt_some h
    have hLen : plaintext.length = plaintext'.length := by
      have hBoth := congrArg List.length hEq
      simpa only [termSodium, termEncrypt_length, Nat.add_right_cancel_iff] using hBoth
    obtain ⟨rfl, hTag⟩ := List.append_inj hEq hLen
    obtain ⟨-, hAd, hNonce, hKey⟩ := termTag_inj (Subtype.ext hTag)
    exact ⟨hAd, hNonce, hKey, rfl⟩
  sha256_injective := fun _ _ h => Encodable.encode_injective (pad_injective 31 h)

end NoCapKVM.Discovery
