import NoCapKVM.Memory.Buffer
import Mathlib.Data.List.Basic
import Mathlib.Data.List.TakeDrop

/-! Big-endian integers. -/
namespace Codec

open Memory

def be16 (v : UInt16) : List UInt8 :=
  [(v >>> 8).toUInt8, v.toUInt8]

def be32 (v : UInt32) : List UInt8 :=
  [(v >>> 24).toUInt8, (v >>> 16).toUInt8, (v >>> 8).toUInt8, v.toUInt8]

def readBe16 (a b : UInt8) : UInt16 :=
  a.toUInt16 <<< 8 ||| b.toUInt16

def readBe32 (a b c d : UInt8) : UInt32 :=
  a.toUInt32 <<< 24 ||| b.toUInt32 <<< 16 ||| c.toUInt32 <<< 8 ||| d.toUInt32

@[simp] theorem be16_length (v : UInt16) : (be16 v).length = 2 := rfl

@[simp] theorem be32_length (v : UInt32) : (be32 v).length = 4 := rfl

/-- Bit by bit: below 8 the second byte, above it the first one. -/
@[simp] theorem readBe16_be16 (v : UInt16) : readBe16 (v >>> 8).toUInt8 v.toUInt8 = v := by
  apply UInt16.toBitVec_inj.mp
  apply BitVec.eq_of_getLsbD_eq
  intro i hi
  simp [readBe16, -UInt16.toUInt16_toUInt8]
  grind

@[simp] theorem readBe32_be32 (v : UInt32) :
    readBe32 (v >>> 24).toUInt8 (v >>> 16).toUInt8 (v >>> 8).toUInt8 v.toUInt8 = v := by
  apply UInt32.toBitVec_inj.mp
  apply BitVec.eq_of_getLsbD_eq
  intro i hi
  simp [readBe32, -UInt32.toUInt32_toUInt8]
  grind

/-- A 64-bit value from its two halves. -/
@[simp] theorem high_or_low (v : UInt64) :
    (v >>> 32).toUInt32.toUInt64 <<< 32 ||| v.toUInt32.toUInt64 = v := by
  apply UInt64.toBitVec_inj.mp
  apply BitVec.eq_of_getLsbD_eq
  intro i hi
  simp [-UInt64.toUInt64_toUInt32]
  grind

/-- The other way round, for numbers that are compared with constants. -/
theorem be16_readBe16 (a b : UInt8) : be16 (readBe16 a b) = [a, b] := by
  have hBytes : (readBe16 a b >>> 8).toUInt8 = a ∧ (readBe16 a b).toUInt8 = b := by
    constructor
    all_goals
      apply UInt8.toBitVec_inj.mp
      apply BitVec.eq_of_getLsbD_eq
      intro i hi
      simp [readBe16, -UInt16.toUInt16_toUInt8]
      try grind
  rw [be16, hBytes.1, hBytes.2]

theorem be32_readBe32 (a b c d : UInt8) : be32 (readBe32 a b c d) = [a, b, c, d] := by
  have hBytes : (readBe32 a b c d >>> 24).toUInt8 = a ∧ (readBe32 a b c d >>> 16).toUInt8 = b ∧
      (readBe32 a b c d >>> 8).toUInt8 = c ∧ (readBe32 a b c d).toUInt8 = d := by
    refine ⟨?_, ?_, ?_, ?_⟩
    all_goals
      apply UInt8.toBitVec_inj.mp
      apply BitVec.eq_of_getLsbD_eq
      intro i hi
      simp [readBe32, -UInt32.toUInt32_toUInt8]
      try grind
  rw [be32, hBytes.1, hBytes.2.1, hBytes.2.2.1, hBytes.2.2.2]

/-- The two halves of a 64-bit value that is put together from them. -/
theorem halves_of_or (high low : UInt32) :
    ((high.toUInt64 <<< 32 ||| low.toUInt64) >>> 32).toUInt32 = high ∧
      (high.toUInt64 <<< 32 ||| low.toUInt64).toUInt32 = low := by
  constructor
  all_goals
    apply UInt32.toBitVec_inj.mp
    apply BitVec.eq_of_getLsbD_eq
    intro i hi
    simp [-UInt64.toUInt64_toUInt32]
    try grind

/-- A length that is cut off fits in its byte. -/
theorem toNat_toUInt8_min {n cap : Nat} (h : cap < 256) : (min n cap).toUInt8.toNat = min n cap := by
  rw [Nat.toUInt8, UInt8.toNat_ofNat', Nat.mod_eq_of_lt (Nat.lt_of_le_of_lt (Nat.min_le_right n cap) h)]

def loadBe16 (data : List UInt8) (offset : Nat) : Option UInt16 := do
  return readBe16 (← load data offset) (← load data (offset + 1))

def loadBe32 (data : List UInt8) (offset : Nat) : Option UInt32 := do
  return readBe32 (← load data offset) (← load data (offset + 1)) (← load data (offset + 2)) (← load data (offset + 3))

theorem loadBe32_drop {data : List UInt8} {offset : Nat} {a b c d : UInt8} {rest : List UInt8}
    (h : data.drop offset = a :: b :: c :: d :: rest) : loadBe32 data offset = some (readBe32 a b c d) := by
  have hLoad : ∀ j, load data (offset + j) = (a :: b :: c :: d :: rest)[j]? := by
    intro j
    rw [← h, List.getElem?_drop, load]
  have hFirst := hLoad 0
  rw [Nat.add_zero] at hFirst
  rw [loadBe32, hFirst, hLoad 1, hLoad 2, hLoad 3]
  rfl

/-- A fixed header of eighteen bytes, and what follows it. -/
theorem first_eighteen {α : Type} {xs : List α} (h : 18 ≤ xs.length) :
    ∃ x₀ x₁ x₂ x₃ y₀ y₁ y₂ y₃ w₀ w₁ w₂ w₃ h₀ h₁ h₂ h₃ p n rest,
      xs = x₀ :: x₁ :: x₂ :: x₃ :: y₀ :: y₁ :: y₂ :: y₃ :: w₀ :: w₁ :: w₂ :: w₃ :: h₀ :: h₁ :: h₂ :: h₃ :: p :: n ::
        rest := by
  refine ⟨xs[0], xs[1], xs[2], xs[3], xs[4], xs[5], xs[6], xs[7], xs[8], xs[9], xs[10], xs[11], xs[12], xs[13], xs[14],
    xs[15], xs[16], xs[17], xs.drop 18, ?_⟩
  simp only [List.cons_getElem_drop_succ, List.drop_zero]

end Codec
