import NoCapKVM.Discovery.Sodium
import NoCapKVM.Text.Hex

/-! `to_hex` and `from_hex` of `known_peers.cpp` and `static_keys.cpp`, which are the same. -/
namespace NoCapKVM.Discovery

open Text

/-- `std::hex << std::setfill('0') << std::setw(2)` -/
def hexPadded (byte : UInt8) : List Char := (Nat.toDigits 16 byte.toNat).leftpad 2 '0'

def toHex (key : Key32 UInt8) : List Char := key.val.flatMap hexPadded

/-- Two characters, in a stream of their own. -/
def readPair (a b : Char) : Option UInt8 :=
  (IStream.hexUInt32 ⟨[a, b], false⟩).1.map UInt32.toUInt8

def readPairs : List Char → Option (List UInt8)
  | a :: b :: rest =>
      match readPair a b with
      | some byte => (readPairs rest).map (byte :: ·)
      | none => none
  | _ => some []

/-- Text is read two characters at a time, and every pair has to be a byte. -/
theorem readPairs_cons {a b : Char} {rest : List Char} {bytes : List UInt8} :
    readPairs (a :: b :: rest) = some bytes ↔
      ∃ byte bytes', readPair a b = some byte ∧ readPairs rest = some bytes' ∧ bytes = byte :: bytes' := by
  rw [readPairs]
  cases readPair a b with
  | none => simp
  | some byte => simp [eq_comm]

/-- A text that is read gives one byte for two characters. -/
theorem length_readPairs : ∀ {text : List Char} {bytes : List UInt8}, readPairs text = some bytes →
    bytes.length = text.length / 2
  | [], _, h => by
    cases h
    rfl
  | [_], _, h => by
    cases h
    simp
  | a :: b :: rest, _, h => by
    obtain ⟨byte, bytes, -, hRest, rfl⟩ := readPairs_cons.mp h
    simp only [List.length_cons, length_readPairs hRest]
    omega

def fromHex (hex : List Char) : Option (Key32 UInt8) :=
  if hLength : hex.length = 64 then
    match hRead : readPairs hex with
    | some bytes => some ⟨bytes, by rw [length_readPairs hRead, hLength]⟩
    | none => none
  else none

/-- A text is a key if it has 64 characters and all of its pairs are bytes. -/
theorem fromHex_eq_some {hex : List Char} {key : Key32 UInt8} :
    fromHex hex = some key ↔ hex.length = 64 ∧ readPairs hex = some key.val := by
  unfold fromHex
  by_cases hLength : hex.length = 64
  · rw [dif_pos hLength]
    split
    · rename_i bytes hRead
      simp only [hLength, hRead, true_and, Option.some.injEq, Subtype.ext_iff]
    · rename_i hRead
      simp [hRead]
  · simp [hLength]

/-- The digits that a stream finds in two characters. -/
def pairDigits (a b : Char) : List Char :=
  (takePrefix (IStream.takeSign (IStream.skipSpace ⟨[a, b], false⟩)).2).takeWhile isHexDigit

/-- A `0x` at the start takes characters away, if anything. -/
theorem length_takePrefix_le (cs : List Char) : (takePrefix cs).length ≤ cs.length := by
  unfold takePrefix
  split <;> simp <;> omega

/-- The two digits of a pair never overflow the number that is read. -/
theorem ofHexDigits_pairDigits_lt (a b : Char) : ofHexDigits (pairDigits a b) < 2 ^ 32 := by
  have hLength : (pairDigits a b).length ≤ 2 := by
    calc
      _ ≤ _ := (List.takeWhile_sublist _).length_le
      _ ≤ _ := length_takePrefix_le _
      _ ≤ _ := IStream.length_takeSign_le _
      _ ≤ _ := IStream.length_skipSpace_le _
  calc
    _ < 16 ^ (pairDigits a b).length := ofHexDigits_lt _
    _ ≤ 16 ^ 2 := Nat.pow_le_pow_right (by decide) hLength
    _ < _ := by decide

/-- A pair is read if its stream finds a digit in it. -/
theorem isSome_readPair {a b : Char} : (readPair a b).isSome ↔ pairDigits a b ≠ [] := by
  have hRange := ofHexDigits_pairDigits_lt a b
  unfold pairDigits at hRange
  simp only [readPair, IStream.hexUInt32, IStream.hexNumber, pairDigits]
  rw [if_pos hRange]
  by_cases h : (takePrefix (IStream.takeSign (IStream.skipSpace ⟨[a, b], false⟩)).2).takeWhile isHexDigit = []
  · simp [h]
  · simp [h]

/-- The characters start a number: with a digit, where no `0x` swallows it, or
with a space or a sign before a digit. -/
def StartsNumber (a b : Char) : Prop :=
  (isHexDigit a ∧ ¬(a = '0' ∧ (b = 'x' ∨ b = 'X'))) ∨ ((isSpace a ∨ a = '+' ∨ a = '-') ∧ isHexDigit b)

/-- After a space or a sign, one character is left. -/
theorem takeWhile_last_ne_nil {c : Char} :
    (takePrefix (IStream.takeSign [c]).2).takeWhile isHexDigit ≠ [] ↔ isHexDigit c := by
  by_cases hDigit : isHexDigit c
  · rw [takeSign_of_isHexDigit hDigit]
    simp [takePrefix, hDigit]
  · have hSign : (takePrefix (IStream.takeSign [c]).2).takeWhile isHexDigit = [] := by
      unfold IStream.takeSign
      split
      · simp_all [takePrefix]
      · simp_all [takePrefix]
      · simp [takePrefix, hDigit]
    simp [hSign, hDigit]

/-- Behind a space the other character has to be a digit. -/
theorem pairDigits_space {a b : Char} (h : isSpace a) : pairDigits a b ≠ [] ↔ isHexDigit b := by
  have hSkip : IStream.skipSpace ⟨[a, b], false⟩ = IStream.skipSpace ⟨[b], false⟩ := List.dropWhile_cons_of_pos h
  unfold pairDigits
  rw [hSkip]
  by_cases hSpace : isSpace b
  · have hNone : IStream.skipSpace ⟨[b], false⟩ = [] := List.dropWhile_cons_of_pos hSpace
    simp [hNone, IStream.takeSign, takePrefix, isHexDigit_of_isSpace hSpace]
  · have hOne : IStream.skipSpace ⟨[b], false⟩ = [b] := List.dropWhile_cons_of_neg hSpace
    rw [hOne, takeWhile_last_ne_nil]

/-- Behind a sign as well. -/
theorem pairDigits_sign {a b : Char} (h : a = '+' ∨ a = '-') : pairDigits a b ≠ [] ↔ isHexDigit b := by
  have hKeep : takePrefix [b] = [b] := takePrefix_of_second (by simp)
  have hLast : pairDigits a b = (takePrefix [b]).takeWhile isHexDigit := by
    rcases h with rfl | rfl <;> rfl
  simp [hLast, hKeep]

/-- A digit is enough, unless it is a zero that an `x` makes the start
of a prefix. -/
theorem pairDigits_digit {a b : Char} (h : isHexDigit a) :
    pairDigits a b ≠ [] ↔ ¬(a = '0' ∧ (b = 'x' ∨ b = 'X')) := by
  have hSkip : IStream.skipSpace ⟨[a, b], false⟩ = [a, b] :=
    List.dropWhile_cons_of_neg (by simp [isSpace_of_isHexDigit h])
  simp only [pairDigits, hSkip, takeSign_of_isHexDigit h]
  by_cases hPrefix : a = '0' ∧ (b = 'x' ∨ b = 'X')
  · rcases hPrefix with ⟨rfl, rfl | rfl⟩ <;> simp [takePrefix]
  · have hKeep : takePrefix [a, b] = [a, b] := by
      unfold takePrefix
      split
      · simp_all
      · simp_all
      · rfl
    simp [hKeep, h, hPrefix]

/-- Any other character ends the number before it begins. -/
theorem pairDigits_other {a b : Char} (hSpace : isSpace a = false) (hDigit : isHexDigit a = false)
    (hSign : ¬(a = '+' ∨ a = '-')) : pairDigits a b = [] := by
  have hSkip : IStream.skipSpace ⟨[a, b], false⟩ = [a, b] := List.dropWhile_cons_of_neg (by simp [hSpace])
  have hKeepSign : IStream.takeSign [a, b] = (false, [a, b]) := by
    unfold IStream.takeSign
    split <;> simp_all
  have hKeep : takePrefix [a, b] = [a, b] := by
    unfold takePrefix
    split
    · exact absurd hDigit (by simp_all [isHexDigit, hexDigit])
    · exact absurd hDigit (by simp_all [isHexDigit, hexDigit])
    · rfl
  simp [pairDigits, hSkip, hKeepSign, hKeep, hDigit]

/-- So the pairs that are read are exactly those that start a number. -/
theorem pairDigits_ne_nil {a b : Char} : pairDigits a b ≠ [] ↔ StartsNumber a b := by
  unfold StartsNumber
  by_cases hSpace : isSpace a
  · rw [pairDigits_space hSpace]
    simp [hSpace, isHexDigit_of_isSpace hSpace]
  · by_cases hSign : a = '+' ∨ a = '-'
    · rw [pairDigits_sign hSign]
      have hDigit : isHexDigit a = false := by rcases hSign with rfl | rfl <;> decide
      simp [hSign, hDigit]
    · by_cases hDigit : isHexDigit a
      · rw [pairDigits_digit hDigit]
        simp [hDigit, hSpace, hSign]
      · simp only [Bool.not_eq_true] at hSpace hDigit
        simp [pairDigits_other hSpace hDigit hSign, hSpace, hDigit, hSign]

theorem isSome_readPair_iff {a b : Char} : (readPair a b).isSome ↔ StartsNumber a b :=
  isSome_readPair.trans pairDigits_ne_nil

/-- Two digits are read as the byte they stand for. -/
theorem readPair_digits {a b : Char} {m n : Nat} (ha : hexDigit a = some m) (hb : hexDigit b = some n) :
    readPair a b = some (UInt8.ofNat (16 * m + n)) := by
  have hDigitA : isHexDigit a := by simp [isHexDigit, ha]
  have hDigitB : isHexDigit b := by simp [isHexDigit, hb]
  have hm := (digitChar_of_hexDigit ha).1
  have hn := (digitChar_of_hexDigit hb).1
  have hRange : 16 * m + n < 2 ^ 32 := by omega
  have hSkip : IStream.skipSpace ⟨[a, b], false⟩ = [a, b] :=
    List.dropWhile_cons_of_neg (by simp [isSpace_of_isHexDigit hDigitA])
  have hPrefix : takePrefix [a, b] = [a, b] := takePrefix_of_second (by simpa using ne_x_of_isHexDigit hDigitB)
  have hValue : ofHexDigits [a, b] = 16 * m + n := by simp [ofHexDigits, ha, hb]
  have hTake : [a, b].takeWhile isHexDigit = [a, b] := by simp [hDigitA, hDigitB]
  simp only [readPair, IStream.hexUInt32, IStream.hexNumber, hSkip, takeSign_of_isHexDigit hDigitA, hPrefix, hTake,
    hValue]
  rw [if_neg (by simp), if_neg (by simp), if_pos hRange]
  simp

/-- A byte is written as its two digits, the higher one first. -/
theorem hexPadded_eq (byte : UInt8) :
    hexPadded byte = [Nat.digitChar (byte.toNat / 16), Nat.digitChar (byte.toNat % 16)] := by
  have hByte := byte.toNat_lt
  unfold hexPadded
  by_cases hSmall : byte.toNat < 16
  · rw [Nat.toDigits_of_lt_base hSmall, Nat.div_eq_of_lt hSmall, Nat.mod_eq_of_lt hSmall]
    rfl
  · have hHigh : byte.toNat / 16 < 16 := by omega
    rw [Nat.toDigits_of_base_le (by decide) (Nat.le_of_not_lt hSmall), Nat.toDigits_of_lt_base hHigh]
    rfl

/-- Bytes that were written are read back. -/
theorem readPairs_toHex (bytes : List UInt8) : readPairs (bytes.flatMap hexPadded) = some bytes := by
  induction bytes with
  | nil => rfl
  | cons byte bytes ih =>
    have hByte := byte.toNat_lt
    have hPair := readPair_digits (hexDigit_digitChar (show byte.toNat / 16 < 16 by omega))
      (hexDigit_digitChar (show byte.toNat % 16 < 16 by omega))
    rw [List.flatMap_cons, hexPadded_eq]
    refine readPairs_cons.mpr ⟨byte, bytes, ?_, ih, rfl⟩
    rw [hPair, Nat.div_add_mod, UInt8.ofNat_toNat]

/-- A key is written in 64 characters. -/
theorem length_toHex (key : Key32 UInt8) : (toHex key).length = 64 := by
  unfold toHex
  simp [hexPadded_eq, List.length_flatMap, key.property]

/-- A key that was written is read back. -/
theorem fromHex_toHex (key : Key32 UInt8) : fromHex (toHex key) = some key :=
  fromHex_eq_some.mpr ⟨length_toHex key, readPairs_toHex key.val⟩

/-- What is written consists of digits, so a strict reader
takes it as well. -/
theorem isHexDigit_toHex {key : Key32 UInt8} : ∀ c ∈ toHex key, isHexDigit c := by
  intro c hc
  obtain ⟨byte, -, hDigit⟩ := List.mem_flatMap.mp hc
  have hByte := byte.toNat_lt
  rw [hexPadded_eq] at hDigit
  rcases List.mem_pair.mp hDigit with rfl | rfl
  · exact isHexDigit_digitChar (by omega)
  · exact isHexDigit_digitChar (by omega)

end NoCapKVM.Discovery
