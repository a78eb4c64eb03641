import NoCapKVM.Discovery.SymbolicSodium

/-! What somebody on the network can compute. The attacker has the functions of libsodium, and
whatever was sent. -/
namespace NoCapKVM.Discovery

/-- All of a list is in the set. -/
abbrev AllWithin {Byte : Type} (S : Set Byte) (data : List Byte) : Prop := ∀ x ∈ data, x ∈ S

/-- The functions of the library do not lead out of the set. -/
structure Sodium.Closed {Byte : Type} (na : Sodium Byte) (S : Set Byte) : Prop where
  byte : ∀ b, na.byte b ∈ S
  sha256 : ∀ data, AllWithin S data → AllWithin S (na.sha256 data).val
  hmacsha256 : ∀ message key, AllWithin S message → AllWithin S key.val → AllWithin S (na.hmacsha256 message key).val
  genericHash : ∀ data, AllWithin S data → AllWithin S (na.genericHash data).val
  publicKey : ∀ key, AllWithin S key.val → AllWithin S (na.publicKey key).val
  scalarmult : ∀ key point secret, AllWithin S key.val → AllWithin S point.val →
    na.scalarmult key point = some secret → AllWithin S secret.val
  aeadEncrypt : ∀ plaintext ad nonce key, AllWithin S plaintext → AllWithin S ad → AllWithin S key.val →
    AllWithin S (na.aeadEncrypt plaintext ad nonce key)
  aeadDecrypt : ∀ ciphertext ad nonce key plaintext, AllWithin S ciphertext → AllWithin S ad → AllWithin S key.val →
    na.aeadDecrypt ciphertext ad nonce key = some plaintext → AllWithin S plaintext

/-- Everything that can be computed from what is known. -/
def Sodium.derivable {Byte : Type} (na : Sodium Byte) (known : Set Byte) : Set Byte :=
  {x | ∀ S, na.Closed S → known ⊆ S → x ∈ S}

/-- A set that the library does not lead out of holds everything that can be
computed from its elements. -/
theorem Sodium.derivable_subset {Byte : Type} {na : Sodium Byte} {known S : Set Byte} (hClosed : na.Closed S)
    (hKnown : known ⊆ S) : na.derivable known ⊆ S :=
  fun _ hx => hx S hClosed hKnown

/-- What is known can be computed. -/
theorem Sodium.subset_derivable {Byte : Type} (na : Sodium Byte) (known : Set Byte) : known ⊆ na.derivable known :=
  fun _ hx _ _ hKnown => hKnown hx

namespace Sym

mutual

/-- A ciphertext may be known together with its key only if its plaintext may
be known. -/
def Open (hidden : Set Atom) : Sym → Prop
  | .byte _ => True
  | .atom a => a ∉ hidden
  | .pub _ => True
  | .shared key key' => AllOpen hidden key ∨ AllOpen hidden key'
  | .mixed key _ => AllOpen hidden key
  | .sha data => AllOpen hidden data
  | .mac message key => AllOpen hidden message ∧ AllOpen hidden key
  | .hash data => AllOpen hidden data
  | .sealed _ plaintext _ _ key => AllOpen hidden key → AllOpen hidden plaintext

def AllOpen (hidden : Set Atom) : List Sym → Prop
  | [] => True
  | s :: rest => Open hidden s ∧ AllOpen hidden rest

end

mutual

/-- What is encrypted under a key that may not be known is one of the things
written. -/
def Genuine (hidden : Set Atom) (wrote : Set Sym) : Sym → Prop
  | .sealed place plaintext ad nonce key =>
      (AllOpen hidden key → AllGenuine hidden wrote plaintext) ∧
        (AllOpen hidden key ∨ .sealed place plaintext ad nonce key ∈ wrote)
  | _ => True

def AllGenuine (hidden : Set Atom) (wrote : Set Sym) : List Sym → Prop
  | [] => True
  | s :: rest => Genuine hidden wrote s ∧ AllGenuine hidden wrote rest

end

section

variable {hidden : Set Atom} {wrote wrote' : Set Sym}

theorem allOpen_iff {data : List Sym} : AllOpen hidden data ↔ ∀ x ∈ data, Open hidden x := by
  induction data with
  | nil => simp [AllOpen]
  | cons s rest ih => simp [AllOpen, ih]

theorem allGenuine_iff {data : List Sym} : AllGenuine hidden wrote data ↔ ∀ x ∈ data, Genuine hidden wrote x := by
  induction data with
  | nil => simp [AllGenuine]
  | cons s rest ih => simp [AllGenuine, ih]

theorem allOpen_append {data data' : List Sym} :
    AllOpen hidden (data ++ data') ↔ AllOpen hidden data ∧ AllOpen hidden data' := by
  simp only [allOpen_iff, List.forall_mem_append]

@[simp] theorem allOpen_wrap {s : Sym} : AllOpen hidden (wrap s).val ↔ Open hidden s := by
  rw [allOpen_iff]
  constructor
  · intro h
    exact h s (List.mem_cons_self ..)
  · intro h x hx
    obtain rfl | rfl := mem_wrap hx
    · exact h
    · exact trivial

mutual

/-- More may have been written. -/
theorem Genuine.mono (h : wrote ⊆ wrote') : ∀ {s : Sym}, Genuine hidden wrote s → Genuine hidden wrote' s
  | .sealed .., hs => ⟨fun hKey => AllGenuine.mono h (hs.1 hKey), hs.2.imp_right fun hMem => h hMem⟩
  | .byte _, _ => trivial
  | .atom _, _ => trivial
  | .pub _, _ => trivial
  | .shared .., _ => trivial
  | .mixed .., _ => trivial
  | .sha _, _ => trivial
  | .mac .., _ => trivial
  | .hash _, _ => trivial

theorem AllGenuine.mono (h : wrote ⊆ wrote') :
    ∀ {data : List Sym}, AllGenuine hidden wrote data → AllGenuine hidden wrote' data
  | [], _ => trivial
  | _ :: _, hs => ⟨Genuine.mono h hs.1, AllGenuine.mono h hs.2⟩

end

/-- What the attacker may know. -/
def knowable (hidden : Set Atom) (wrote : Set Sym) : Set Sym :=
  {x | Open hidden x ∧ Genuine hidden wrote x}

/-- What may be known is open, and was written where it had to be. -/
theorem within_knowable {data : List Sym} :
    AllWithin (knowable hidden wrote) data ↔ AllOpen hidden data ∧ AllGenuine hidden wrote data := by
  rw [allOpen_iff, allGenuine_iff]
  exact ⟨fun h => ⟨fun x hx => (h x hx).1, fun x hx => (h x hx).2⟩, fun h x hx => ⟨h.1 x hx, h.2 x hx⟩⟩

/-- Data that consist of one such symbol may be known as well. -/
theorem within_wrap {s : Sym} (h : s ∈ knowable hidden wrote) : AllWithin (knowable hidden wrote) (wrap s).val := by
  intro x hx
  obtain rfl | rfl := mem_wrap hx
  · exact h
  · exact ⟨trivial, trivial⟩

/-- A product with a key that may be known may be known. -/
theorem multiply_knowable {key : Key32 Sym} (hKey : AllOpen hidden key.val) (point : Key32 Sym) :
    AllWithin (knowable hidden wrote) (multiply key point).val := by
  unfold multiply
  split
  · apply within_wrap
    rcases sharedOf_cases key.val _ with hEq | hEq
    · rw [hEq]
      exact ⟨.inl hKey, trivial⟩
    · rw [hEq]
      exact ⟨.inr hKey, trivial⟩
  · exact within_wrap ⟨hKey, trivial⟩

variable (hidden wrote) in
/-- The attacker cannot leave what it may know. -/
theorem knowable_closed : symSodium.Closed (knowable hidden wrote) where
  byte _ := ⟨trivial, trivial⟩
  sha256 _ hData := within_wrap ⟨(within_knowable.mp hData).1, trivial⟩
  hmacsha256 _ _ hMessage hKey :=
    within_wrap ⟨⟨(within_knowable.mp hMessage).1, (within_knowable.mp hKey).1⟩, trivial⟩
  genericHash _ hData := within_wrap ⟨(within_knowable.mp hData).1, trivial⟩
  publicKey _ _ := within_wrap ⟨trivial, trivial⟩
  scalarmult := by
    intro key point secret hKey _ h
    obtain rfl := Option.some.inj h
    exact multiply_knowable (within_knowable.mp hKey).1 point
  aeadEncrypt := by
    intro plaintext ad nonce key hPlaintext _ hKey x hx
    obtain ⟨i, -, rfl⟩ := List.mem_map.mp hx
    have hOpen := (within_knowable.mp hKey).1
    obtain ⟨hOpenText, hGenuineText⟩ := within_knowable.mp hPlaintext
    exact ⟨fun _ => hOpenText, fun _ => hGenuineText, .inl hOpen⟩
  aeadDecrypt := by
    intro ciphertext ad nonce key plaintext hCiphertext _ hKey h
    obtain ⟨rest, hEq⟩ := encrypt_eq_cons plaintext ad nonce key
    have hHead := hCiphertext (.sealed 0 plaintext ad nonce key.val) (by
      rw [decrypt_some h, hEq]
      exact List.mem_cons_self ..)
    have hOpen := (within_knowable.mp hKey).1
    exact within_knowable.mpr ⟨hHead.1 hOpen, hHead.2.1 hOpen⟩

/-- Whatever is computed from what may be known may be known. The attacker
gains nothing by computing. -/
theorem derivable_knowable {known : Set Sym} (h : known ⊆ knowable hidden wrote) :
    symSodium.derivable known ⊆ knowable hidden wrote :=
  Sodium.derivable_subset (knowable_closed hidden wrote) h

/-- Nothing that is decrypted under a key that may not be known was made by
the attacker. -/
theorem wrote_of_decrypt {ciphertext ad plaintext : List Sym} {nonce : List UInt8} {key : Key32 Sym}
    (h : decrypt ciphertext ad nonce key = some plaintext) (hKnown : AllWithin (knowable hidden wrote) ciphertext)
    (hKey : ¬ AllOpen hidden key.val) : .sealed 0 plaintext ad nonce key.val ∈ wrote := by
  obtain ⟨rest, hEq⟩ := encrypt_eq_cons plaintext ad nonce key
  have hHead := hKnown (.sealed 0 plaintext ad nonce key.val) (by
    rw [decrypt_some h, hEq]
    exact List.mem_cons_self ..)
  exact hHead.2.2.resolve_left hKey

end

end Sym
end NoCapKVM.Discovery
