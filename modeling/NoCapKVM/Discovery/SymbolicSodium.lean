import NoCapKVM.Discovery.Sodium
import Mathlib.SetTheory.Cardinal.Order

/-! libsodium on symbols. Every function has a symbol of its own, so what is not made of the
same parts is not the same, and nothing can be taken apart that the library does not take apart. -/
namespace NoCapKVM.Discovery

/-- What nobody can guess: the private key of a device, the private key of one
handshake, and a piece of user data. -/
inductive Atom where
  | device (d : Nat)
  | ephemeral (n : Nat)
  | payload (n : Nat)

/-- `sealed` is the symbol at one place of a ciphertext. -/
inductive Sym where
  | byte (b : UInt8)
  | atom (a : Atom)
  | pub (key : List Sym)
  | shared (key key' : List Sym)
  | mixed (key point : List Sym)
  | sha (data : List Sym)
  | mac (message key : List Sym)
  | hash (data : List Sym)
  | sealed (place : Nat) (plaintext ad : List Sym) (nonce : List UInt8) (key : List Sym)

namespace Sym

/-- A symbol in an array of 32. -/
def wrap (s : Sym) : Key32 Sym := ⟨s :: List.replicate 31 (.byte 0), by simp⟩

/-- Two symbols have two wraps. -/
theorem wrap_injective : Function.Injective wrap := by
  intro s t h
  exact (List.cons.inj (congrArg Subtype.val h)).1

theorem mem_wrap {s t : Sym} (h : s ∈ (wrap t).val) : s = t ∨ s = .byte 0 := by
  rcases List.mem_cons.mp h with rfl | hZero
  · exact .inl rfl
  · exact .inr (List.eq_of_mem_replicate hZero)

open Classical in
/-- Two private keys in an order that does not depend on whose they are. -/
noncomputable def sharedOf (key key' : List Sym) : Sym :=
  if WellOrderingRel key key' then .shared key key' else .shared key' key

/-- Two parties compute the same shared secret. -/
theorem sharedOf_comm (key key' : List Sym) : sharedOf key key' = sharedOf key' key := by
  unfold sharedOf
  rcases trichotomous_of WellOrderingRel key key' with hLess | rfl | hLess
  · rw [if_pos hLess, if_neg (asymm hLess)]
  · rfl
  · rw [if_neg (asymm hLess), if_pos hLess]

theorem sharedOf_cases (key key' : List Sym) :
    sharedOf key key' = .shared key key' ∨ sharedOf key key' = .shared key' key := by
  unfold sharedOf
  split
  · exact .inl rfl
  · exact .inr rfl

def encrypt (plaintext ad : List Sym) (nonce : List UInt8) (key : Key32 Sym) : List Sym :=
  (List.range (plaintext.length + 16)).map fun i => .sealed i plaintext ad nonce key.val

theorem encrypt_eq_cons (plaintext ad : List Sym) (nonce : List UInt8) (key : Key32 Sym) :
    ∃ rest, encrypt plaintext ad nonce key = .sealed 0 plaintext ad nonce key.val :: rest := by
  unfold encrypt
  rw [List.range_succ_eq_map]
  exact ⟨_, rfl⟩

open Classical in
noncomputable def decrypt (ciphertext ad : List Sym) (nonce : List UInt8) (key : Key32 Sym) : Option (List Sym) :=
  match ciphertext with
  | .sealed _ plaintext _ _ _ :: _ => if ciphertext = encrypt plaintext ad nonce key then some plaintext else none
  | _ => none

/-- A product with what is no public key has a symbol of its own. -/
noncomputable def multiply (key point : Key32 Sym) : Key32 Sym :=
  match point.val with
  | .pub key' :: _ => wrap (sharedOf key.val key')
  | _ => wrap (.mixed key.val point.val)

end Sym

open NoCapKVM.Discovery.Sym

noncomputable def symSodium : Sodium Sym where
  byte := .byte
  sha256 data := wrap (.sha data)
  hmacsha256 message key := wrap (.mac message key.val)
  genericHash data := wrap (.hash data)
  publicKey key := wrap (.pub key.val)
  scalarmult key point := some (multiply key point)
  aeadEncrypt := encrypt
  aeadDecrypt := decrypt

/-- Only a ciphertext that was made under the key decrypts, and it decrypts to
what was encrypted. -/
theorem decrypt_some {ciphertext ad plaintext : List Sym} {nonce : List UInt8} {key : Key32 Sym}
    (h : decrypt ciphertext ad nonce key = some plaintext) : ciphertext = encrypt plaintext ad nonce key := by
  unfold decrypt at h
  split at h
  · simp only [Option.ite_none_right_eq_some, Option.some.injEq] at h
    obtain ⟨hEq, rfl⟩ := h
    exact hEq
  · cases h

/-- What was encrypted decrypts under the same key, nonce and
additional data. -/
theorem decrypt_encrypt (plaintext ad : List Sym) (nonce : List UInt8) (key : Key32 Sym) :
    decrypt (encrypt plaintext ad nonce key) ad nonce key = some plaintext := by
  obtain ⟨rest, hEq⟩ := encrypt_eq_cons plaintext ad nonce key
  unfold decrypt
  rw [hEq]
  simp only [← hEq, if_true]

/-- A ciphertext tells everything that it was made of. -/
theorem encrypt_inj {plaintext plaintext' ad ad' : List Sym} {nonce nonce' : List UInt8} {key key' : Key32 Sym}
    (h : encrypt plaintext ad nonce key = encrypt plaintext' ad' nonce' key') :
    plaintext = plaintext' ∧ ad = ad' ∧ nonce = nonce' ∧ key = key' := by
  obtain ⟨rest, hEq⟩ := encrypt_eq_cons plaintext ad nonce key
  obtain ⟨rest', hEq'⟩ := encrypt_eq_cons plaintext' ad' nonce' key'
  rw [hEq, hEq'] at h
  obtain ⟨-, hPlaintext, hAd, hNonce, hKey⟩ := Sym.sealed.inj (List.cons.inj h).1
  exact ⟨hPlaintext, hAd, hNonce, Subtype.ext hKey⟩

theorem encrypt_length (plaintext ad : List Sym) (nonce : List UInt8) (key : Key32 Sym) :
    (encrypt plaintext ad nonce key).length = plaintext.length + 16 := by
  rw [encrypt, List.length_map, List.length_range]

/-- So the symbols keep the contract of the library, and hide what they are
made of. -/
theorem symSodium_symbolic : symSodium.Symbolic where
  decrypt_encrypt := decrypt_encrypt
  encrypt_length := encrypt_length
  decrypt_length := by
    intro ciphertext ad nonce key plaintext h
    rw [decrypt_some h, encrypt_length]
  dh_comm a b := congrArg some (congrArg wrap (sharedOf_comm a.val b.val))
  decrypt_exact := by
    intro plaintext plaintext' ad ad' nonce nonce' key key' h
    obtain ⟨hPlaintext, hAd, hNonce, hKey⟩ := encrypt_inj (decrypt_some h)
    exact ⟨hAd, hNonce, hKey, hPlaintext⟩
  sha256_injective _ _ h := Sym.sha.inj (wrap_injective h)

end NoCapKVM.Discovery
