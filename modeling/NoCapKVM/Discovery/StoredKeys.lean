import NoCapKVM.Discovery.PeerFile

/-! What the two key files are read as when they are damaged. -/
namespace NoCapKVM.Discovery

open Text

/-- Two lines. One that is missing reads as an empty one. -/
def identityFields (file : List Char) : List Char × List Char :=
  let (pubHex, input) := IStream.getline ⟨file, false⟩
  let (privHex, _) := input.getline
  (pubHex.getD [], privHex.getD [])

def readIdentity (file : List Char) : Option (Keypair UInt8) :=
  match fromHex (identityFields file).1, fromHex (identityFields file).2 with
  | some publicKey, some privateKey => some ⟨publicKey, privateKey⟩
  | _, _ => none

/-- The key pair, and the file that is left. `generated` is a new pair. -/
def getOrCreateStaticKeypair (generated : Keypair UInt8) (file : Option (List Char)) : Keypair UInt8 × List Char :=
  match file.bind fun text => (readIdentity text).map (·, text) with
  | some found => found
  | none => (generated, toHex generated.publicKey ++ '\n' :: toHex generated.privateKey ++ ['\n'])

/-- The text is the key in hexadecimal digits. -/
structure Spells (text : List Char) (key : Key32 UInt8) : Prop where
  length : text.length = 64
  digits : ∀ c ∈ text, isHexDigit c
  same : (toHex key).map Char.toLower = text.map Char.toLower

def AllPairs (P : Char → Char → Prop) : List Char → Prop
  | a :: b :: rest => P a b ∧ AllPairs P rest
  | _ => True

/-- Every pair of characters starts a number. -/
def Numeric (text : List Char) : Prop := text.length = 64 ∧ AllPairs StartsNumber text

theorem isSome_readPairs : ∀ text : List Char, (readPairs text).isSome ↔ AllPairs StartsNumber text
  | [] => by simp [readPairs, AllPairs]
  | [_] => by simp [readPairs, AllPairs]
  | a :: b :: rest => by
    have hPair : (readPair a b).isSome ↔ StartsNumber a b := isSome_readPair_iff
    have hRest := isSome_readPairs rest
    unfold readPairs AllPairs
    cases hRead : readPair a b with
    | some byte => simp [← hPair, hRead, ← hRest]
    | none => simp [← hPair, hRead]

theorem numeric_iff {text : List Char} : Numeric text ↔ ∃ key, fromHex text = some key := by
  unfold Numeric
  rw [← isSome_readPairs]
  constructor
  · rintro ⟨hLength, hPairs⟩
    obtain ⟨bytes, hRead⟩ := Option.isSome_iff_exists.mp hPairs
    have hBytes : bytes.length = 32 := by rw [length_readPairs hRead, hLength]
    exact ⟨⟨bytes, hBytes⟩, fromHex_eq_some.mpr ⟨hLength, hRead⟩⟩
  · rintro ⟨key, hKey⟩
    obtain ⟨hLength, hRead⟩ := fromHex_eq_some.mp hKey
    exact ⟨hLength, Option.isSome_of_eq_some hRead⟩

/-- Pairs of digits are read as what they spell. -/
theorem flatMap_readPairs : ∀ {text : List Char} {bytes : List UInt8}, text.length % 2 = 0 →
    (∀ c ∈ text, isHexDigit c) → readPairs text = some bytes → bytes.flatMap hexPadded = text.map Char.toLower
  | [], _, _, _, h => by
    cases h
    rfl
  | [_], _, hEven, _, _ => by cases hEven
  | a :: b :: rest, _, hEven, hDigits, h => by
    obtain ⟨byte, bytes, hPair, hRest, rfl⟩ := readPairs_cons.mp h
    obtain ⟨m, hm⟩ := Option.isSome_iff_exists.mp (hDigits a (by simp))
    obtain ⟨n, hn⟩ := Option.isSome_iff_exists.mp (hDigits b (by simp))
    obtain ⟨hmRange, hmChar⟩ := digitChar_of_hexDigit hm
    obtain ⟨hnRange, hnChar⟩ := digitChar_of_hexDigit hn
    have hByte : byte.toNat = 16 * m + n := by
      rw [readPair_digits hm hn, Option.some.injEq] at hPair
      rw [← hPair, UInt8.toNat_ofNat', Nat.mod_eq_of_lt (by omega)]
    have hHigh : byte.toNat / 16 = m := by omega
    have hLow : byte.toNat % 16 = n := by omega
    have hTail : rest.length % 2 = 0 := by
      simp only [List.length_cons] at hEven
      omega
    rw [List.flatMap_cons, hexPadded_eq, hHigh, hLow, hmChar, hnChar,
      flatMap_readPairs hTail (fun c hc => hDigits c (by simp [hc])) hRest]
    rfl

theorem map_toLower_toHex (key : Key32 UInt8) : (toHex key).map Char.toLower = toHex key := by
  have hDigit : ∀ {n : Nat}, n < 16 → n.digitChar.toLower = n.digitChar := by decide
  have hByte (byte : UInt8) : (hexPadded byte).map Char.toLower = hexPadded byte := by
    have hRange := byte.toNat_lt
    rw [hexPadded_eq, List.map_cons, List.map_cons, List.map_nil, hDigit (by omega), hDigit (by omega)]
  unfold toHex
  rw [List.map_flatMap]
  simp only [hByte]

/-- A text of digits is not read as any other key. -/
theorem Spells.of_digits {text : List Char} {key : Key32 UInt8} (hDigits : ∀ c ∈ text, isHexDigit c)
    (h : fromHex text = some key) : Spells text key := by
  obtain ⟨hLength, hRead⟩ := fromHex_eq_some.mp h
  refine ⟨hLength, hDigits, ?_⟩
  rw [map_toLower_toHex]
  exact flatMap_readPairs (by rw [hLength]) hDigits hRead

theorem spells_iff {text : List Char} :
    (∀ key, fromHex text = some key → Spells text key) ↔ (Numeric text → ∀ c ∈ text, isHexDigit c) := by
  constructor
  · intro h hNumeric
    obtain ⟨key, hKey⟩ := numeric_iff.mp hNumeric
    exact (h key hKey).digits
  · intro h key hKey
    exact Spells.of_digits (h (numeric_iff.mpr ⟨key, hKey⟩)) hKey

theorem readPeer_eq_some {line : List Char} {deviceId : UInt64} {key : Key32 UInt8} :
    readPeer line = some (deviceId, key) ↔
      ∃ pubHex, peerFields line = some (deviceId, pubHex) ∧ fromHex pubHex = some key := by
  unfold readPeer
  cases peerFields line with
  | none => simp
  | some fields =>
    obtain ⟨d, pubHex⟩ := fields
    simp only [Option.map_eq_some_iff, Prod.mk.injEq, Option.some.injEq]
    constructor
    · rintro ⟨key', hKey, rfl, rfl⟩
      exact ⟨pubHex, ⟨rfl, rfl⟩, hKey⟩
    · rintro ⟨pubHex', ⟨rfl, rfl⟩, hKey⟩
      exact ⟨key, hKey, rfl, rfl⟩

theorem readIdentity_eq_some {file : List Char} {keypair : Keypair UInt8} :
    readIdentity file = some keypair ↔
      fromHex (identityFields file).1 = some keypair.publicKey ∧
      fromHex (identityFields file).2 = some keypair.privateKey := by
  unfold readIdentity
  cases fromHex (identityFields file).1 with
  | none => simp
  | some publicKey =>
    cases fromHex (identityFields file).2 with
    | none => simp
    | some privateKey =>
      simp only [Option.some.injEq]
      constructor
      · rintro rfl
        exact ⟨rfl, rfl⟩
      · rintro ⟨rfl, rfl⟩
        rfl

/-- A pair that is not read makes a new key pair. -/
theorem getOrCreateStaticKeypair_damaged {file : List Char}
    (h : fromHex (identityFields file).1 = none ∨ fromHex (identityFields file).2 = none) (generated : Keypair UInt8) :
    (getOrCreateStaticKeypair generated (some file)).1 = generated := by
  have hNone : readIdentity file = none := by
    refine Option.eq_none_iff_forall_ne_some.mpr ?_
    intro keypair hRead
    obtain ⟨hPub, hPriv⟩ := readIdentity_eq_some.mp hRead
    rcases h with hFail | hFail
    · rw [hPub] at hFail
      cases hFail
    · rw [hPriv] at hFail
      cases hFail
  simp [getOrCreateStaticKeypair, hNone]

/-- A damaged text passes for a key exactly if every pair of its characters
starts a number and some character is no digit. -/
theorem stored_keys_strict_iff (text line file : List Char) :
    ((∀ key, fromHex text = some key → Spells text key) ↔ (Numeric text → ∀ c ∈ text, isHexDigit c)) ∧
    ((∀ deviceId key, readPeer line = some (deviceId, key) →
        ∃ pubHex, peerFields line = some (deviceId, pubHex) ∧ Spells pubHex key) ↔
      ∀ deviceId pubHex, peerFields line = some (deviceId, pubHex) → Numeric pubHex → ∀ c ∈ pubHex, isHexDigit c) ∧
    ((∀ keypair, readIdentity file = some keypair →
        Spells (identityFields file).1 keypair.publicKey ∧ Spells (identityFields file).2 keypair.privateKey) ↔
      (Numeric (identityFields file).1 ∧ Numeric (identityFields file).2 →
        ∀ c ∈ (identityFields file).1 ++ (identityFields file).2, isHexDigit c)) := by
  refine ⟨spells_iff, ?_, ?_⟩
  · constructor
    · intro h deviceId pubHex hFields hNumeric
      obtain ⟨key, hKey⟩ := numeric_iff.mp hNumeric
      obtain ⟨pubHex', hFields', hSpells⟩ := h deviceId key (readPeer_eq_some.mpr ⟨pubHex, hFields, hKey⟩)
      obtain ⟨-, rfl⟩ := Prod.mk.inj (Option.some.inj (hFields'.symm.trans hFields))
      exact hSpells.digits
    · intro h deviceId key hRead
      obtain ⟨pubHex, hFields, hKey⟩ := readPeer_eq_some.mp hRead
      exact ⟨pubHex, hFields, Spells.of_digits (h deviceId pubHex hFields (numeric_iff.mpr ⟨key, hKey⟩)) hKey⟩
  · constructor
    · rintro h ⟨hPub, hPriv⟩ c hc
      obtain ⟨publicKey, hPublic⟩ := numeric_iff.mp hPub
      obtain ⟨privateKey, hPrivate⟩ := numeric_iff.mp hPriv
      obtain ⟨hSpellsPub, hSpellsPriv⟩ := h ⟨publicKey, privateKey⟩ (readIdentity_eq_some.mpr ⟨hPublic, hPrivate⟩)
      rcases List.mem_append.mp hc with hc | hc
      · exact hSpellsPub.digits c hc
      · exact hSpellsPriv.digits c hc
    · intro h keypair hRead
      obtain ⟨hPublic, hPrivate⟩ := readIdentity_eq_some.mp hRead
      have hDigits := h ⟨numeric_iff.mpr ⟨_, hPublic⟩, numeric_iff.mpr ⟨_, hPrivate⟩⟩
      exact ⟨Spells.of_digits (fun c hc => hDigits c (List.mem_append_left _ hc)) hPublic,
        Spells.of_digits (fun c hc => hDigits c (List.mem_append_right _ hc)) hPrivate⟩

/-- Thirty-two pairs, and a `g` in the first. -/
def damagedKey : List Char := 'a' :: 'g' :: List.replicate 62 '0'

/-- It is read as a key that starts with `0a`. -/
theorem damagedKey_read : ¬∀ text key, fromHex text = some key → Spells text key := by
  intro h
  have hRead : fromHex damagedKey = some ⟨0x0a :: List.replicate 31 0, by decide⟩ := by
    refine fromHex_eq_some.mpr ⟨by decide, ?_⟩
    decide +kernel
  have hDigit := (h _ _ hRead).digits 'g' (by decide)
  exact absurd hDigit (by decide)

end NoCapKVM.Discovery
