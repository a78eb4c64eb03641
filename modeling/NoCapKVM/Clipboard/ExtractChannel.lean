import Mathlib.Data.Nat.Bitwise
import Mathlib.Order.Basic

/-! `extract_channel` of `clipboard.cpp`: an 8-bit channel of a pixel, under the channel's mask.
A shift by the width of the type or more is undefined and has no result here. -/
namespace NoCapKVM.Clipboard

def shiftRight (x : UInt32) (n : Nat) : Option UInt32 :=
  if n < 32 then some (x >>> UInt32.ofNat n) else none

def shiftLeft (x : UInt32) (n : Nat) : Option UInt32 :=
  if n < 32 then some (x <<< UInt32.ofNat n) else none

/-- A shift that the source leaves undefined has no result here. -/
theorem lt_of_shiftRight {x y : UInt32} {n : Nat} (h : shiftRight x n = some y) : n < 32 := by
  by_contra hWide
  rw [shiftRight, if_neg hWide] at h
  cases h

/-- `while (!((mask >> shift) & 1)) ++shift;` -/
def findShift (mask : UInt32) (shift : Nat) : Option Nat :=
  match _h : shiftRight mask shift with
  | none => none
  | some low => if low &&& 1 = 0 then findShift mask (shift + 1) else some shift
termination_by 32 - shift
decreasing_by
  have hShift := lt_of_shiftRight _h
  omega

/-- `while ((mask >> (shift + bits)) & 1) ++bits;` -/
def countBits (mask : UInt32) (shift bits : Nat) : Option Nat :=
  match _h : shiftRight mask (shift + bits) with
  | none => none
  | some low => if low &&& 1 = 0 then some bits else countBits mask shift (bits + 1)
termination_by 32 - (shift + bits)
decreasing_by
  have hShift := lt_of_shiftRight _h
  omega

/-- `if (bits < 8) value <<= (8 - bits); else if (bits > 8) value >>= (bits - 8);` -/
def rescale (value : UInt32) (bits : Nat) : Option UInt32 :=
  if bits < 8 then shiftLeft value (8 - bits)
  else if bits > 8 then shiftRight value (bits - 8)
  else some value

def extractChannel (pixel mask : UInt32) : Option UInt8 :=
  if mask = 0 then some 0
  else do
    let masked := pixel &&& mask
    let shift ← findShift mask 0
    let bits ← countBits mask shift 0
    let value ← shiftRight masked shift
    let value ← rescale value bits
    return (value &&& 0xFF).toUInt8

/-- The set bits are the `n` bits from `lo` on. -/
def Contiguous (mask : UInt32) (lo n : Nat) : Prop :=
  ∀ i, mask.toNat.testBit i = decide (lo ≤ i ∧ i < lo + n)

def channelValue (pixel : UInt32) (lo n : Nat) : Nat := pixel.toNat / 2 ^ lo % 2 ^ n

/-- The top 8 bits of a channel that is wider, and a narrower
one shifted up. -/
def leftAligned (value n : Nat) : Nat :=
  if n ≤ 8 then value * 2 ^ (8 - n) else value / 2 ^ (n - 8)

theorem toNat_shift {n : Nat} (h : n < 32) : (UInt32.ofNat n).toNat % 32 = n := by
  rw [UInt32.toNat_ofNat']
  omega

/-- A shift to the right is a division by a power of two. -/
theorem toNat_shiftRight {x y : UInt32} {n : Nat} (h : shiftRight x n = some y) : y.toNat = x.toNat / 2 ^ n := by
  have hShift := lt_of_shiftRight h
  rw [shiftRight, if_pos hShift] at h
  cases h
  rw [UInt32.toNat_shiftRight, toNat_shift hShift, Nat.shiftRight_eq_div_pow]

/-- The test of both loops. -/
theorem low_bit {mask low : UInt32} {n : Nat} (h : shiftRight mask n = some low) :
    low &&& 1 = 0 ↔ mask.toNat.testBit n = false := by
  rw [← UInt32.toNat_inj, UInt32.toNat_and, toNat_shiftRight h, Nat.testBit_eq_decide_div_mod_eq]
  simp

/-- One round of the first loop. -/
theorem findShift_round (mask : UInt32) {shift : Nat} (h : shift < 32) : findShift mask shift =
    if mask.toNat.testBit shift then some shift else findShift mask (shift + 1) := by
  rw [findShift]
  split
  · rename_i hNone
    simp [shiftRight, h] at hNone
  · rename_i low hLow
    cases hBit : mask.toNat.testBit shift with
    | false => rw [if_pos ((low_bit hLow).mpr hBit), if_neg Bool.false_ne_true]
    | true => rw [if_neg ((low_bit hLow).not.mpr (by simp [hBit])), if_pos rfl]

/-- One round of the second loop. -/
theorem countBits_round (mask : UInt32) {shift bits : Nat} (h : shift + bits < 32) : countBits mask shift bits =
    if mask.toNat.testBit (shift + bits) then countBits mask shift (bits + 1) else some bits := by
  rw [countBits]
  split
  · rename_i hNone
    simp [shiftRight, h] at hNone
  · rename_i low hLow
    cases hBit : mask.toNat.testBit (shift + bits) with
    | false => rw [if_pos ((low_bit hLow).mpr hBit), if_neg Bool.false_ne_true]
    | true => rw [if_neg ((low_bit hLow).not.mpr (by simp [hBit])), if_pos rfl]

/-- Past the last bit the shift is by the width of the type. -/
theorem countBits_wide (mask : UInt32) {shift bits : Nat} (h : 32 ≤ shift + bits) : countBits mask shift bits = none := by
  rw [countBits]
  split
  · rfl
  · rename_i hLow
    exact absurd (lt_of_shiftRight hLow) (Nat.not_lt.mpr h)

section Loops

variable {mask : UInt32} {lo n : Nat}

/-- A mask that is not zero has at least one bit. -/
theorem Contiguous.pos (h : Contiguous mask lo n) (hNonzero : mask ≠ 0) : 0 < n := by
  by_contra hNone
  apply hNonzero
  rw [← UInt32.toNat_inj]
  apply Nat.eq_of_testBit_eq
  intro i
  rw [h i, UInt32.toNat_zero, Nat.zero_testBit, decide_eq_false_iff_not]
  omega

/-- Its bits are among the 32 of the pixel. -/
theorem Contiguous.le (h : Contiguous mask lo n) (hPos : 0 < n) : lo + n ≤ 32 := by
  have hLast : mask.toNat.testBit (lo + n - 1) = true := by
    rw [h, decide_eq_true_eq]
    omega
  have hBound : 2 ^ (lo + n - 1) < 2 ^ 32 := lt_of_le_of_lt (Nat.ge_two_pow_of_testBit hLast) mask.toNat_lt
  have hLess := (Nat.pow_lt_pow_iff_right (by decide)).mp hBound
  omega

/-- The first loop stops at the lowest set bit. -/
theorem findShift_eq (h : Contiguous mask lo n) (hPos : 0 < n) {shift : Nat} (hBelow : shift ≤ lo) :
    findShift mask shift = some lo := by
  have hLe := h.le hPos
  induction hGap : lo - shift generalizing shift with
  | zero =>
      obtain rfl : shift = lo := by omega
      rw [findShift_round mask (by omega), h, if_pos (decide_eq_true (by omega))]
  | succ gap ih =>
      have hClear : mask.toNat.testBit shift = false := by
        rw [h, decide_eq_false_iff_not]
        omega
      rw [findShift_round mask (by omega), hClear, if_neg Bool.false_ne_true]
      exact ih (by omega) (by omega)

/-- The second loop counts all bits, and then looks at one more. -/
theorem countBits_eq (h : Contiguous mask lo n) (hPos : 0 < n) {bits : Nat} (hBelow : bits ≤ n) :
    countBits mask lo bits = if lo + n < 32 then some n else none := by
  have hLe := h.le hPos
  induction hGap : n - bits generalizing bits with
  | zero =>
      obtain rfl : bits = n := by omega
      by_cases hTop : lo + bits < 32
      · have hClear : mask.toNat.testBit (lo + bits) = false := by
          rw [h, decide_eq_false_iff_not]
          omega
        rw [countBits_round mask hTop, hClear, if_neg Bool.false_ne_true, if_pos hTop]
      · rw [countBits_wide mask (Nat.not_lt.mp hTop), if_neg hTop]
  | succ gap ih =>
      have hSet : mask.toNat.testBit (lo + bits) = true := by
        rw [h, decide_eq_true_eq]
        omega
      rw [countBits_round mask (by omega), hSet, if_pos rfl]
      exact ih (by omega) (by omega)

/-- It ends below the top bit exactly when its number is below that of
the top bit. -/
theorem Contiguous.top_iff (h : Contiguous mask lo n) (hPos : 0 < n) : lo + n < 32 ↔ mask < 0x80000000 := by
  have hLe := h.le hPos
  have hTop : mask.toNat.testBit 31 = decide (2 ^ 31 ≤ mask.toNat) := by
    rw [Nat.testBit_eq_decide_div_mod_eq]
    have hBound := mask.toNat_lt
    apply decide_eq_decide.mpr
    omega
  rw [h 31, decide_eq_decide] at hTop
  rw [UInt32.lt_iff_toNat_lt]
  change _ ↔ mask.toNat < 2 ^ 31
  omega

end Loops

section Value

variable {mask : UInt32} {lo n : Nat}

/-- What is left of a pixel under its mask is the value of the channel. -/
theorem masked_value (h : Contiguous mask lo n) (pixel : UInt32) :
    (pixel &&& mask).toNat / 2 ^ lo = channelValue pixel lo n := by
  rw [UInt32.toNat_and, channelValue, ← Nat.shiftRight_eq_div_pow, ← Nat.shiftRight_eq_div_pow]
  apply Nat.eq_of_testBit_eq
  intro i
  rw [Nat.testBit_shiftRight, Nat.testBit_and, h, Nat.testBit_mod_two_pow, Nat.testBit_shiftRight, Bool.and_comm]
  congr 1
  apply decide_eq_decide.mpr
  omega

/-- A value that is aligned to the left fits a byte. -/
theorem leftAligned_lt {value : Nat} (h : value < 2 ^ n) : leftAligned value n < 2 ^ 8 := by
  unfold leftAligned
  split
  · rename_i hNarrow
    calc
      value * 2 ^ (8 - n) < 2 ^ n * 2 ^ (8 - n) := Nat.mul_lt_mul_of_pos_right h (Nat.two_pow_pos _)
      _ = 2 ^ 8 := by rw [← Nat.pow_add, Nat.add_sub_cancel' hNarrow]
  · apply Nat.div_lt_of_lt_mul
    calc
      value < 2 ^ n := h
      _ = 2 ^ (n - 8) * 2 ^ 8 := by rw [← Nat.pow_add, Nat.sub_add_cancel (by omega)]

/-- Rescaling aligns the value to the left, whatever the width of
the channel is. -/
theorem rescale_eq {value : UInt32} (hValue : value.toNat < 2 ^ n) (hWidth : n ≤ 32) :
    ∃ scaled, rescale value n = some scaled ∧ scaled.toNat = leftAligned value.toNat n := by
  have hSmall := leftAligned_lt hValue
  unfold rescale
  unfold leftAligned at hSmall ⊢
  by_cases hNarrow : n < 8
  · rw [if_pos hNarrow, shiftLeft, if_pos (show 8 - n < 32 by omega)]
    refine ⟨_, rfl, ?_⟩
    rw [if_pos (by omega)] at hSmall ⊢
    rw [UInt32.toNat_shiftLeft, toNat_shift (by omega), Nat.shiftLeft_eq]
    exact Nat.mod_eq_of_lt (lt_trans hSmall (by decide))
  · rw [if_neg hNarrow]
    by_cases hWide : n > 8
    · rw [if_pos hWide, if_neg (by omega)]
      obtain ⟨scaled, hScaled⟩ : ∃ y, shiftRight value (n - 8) = some y := ⟨_, if_pos (by omega)⟩
      exact ⟨scaled, hScaled, toNat_shiftRight hScaled⟩
    · obtain rfl : n = 8 := by omega
      exact ⟨value, rfl, by simp⟩

/-- A byte takes the last eight bits. -/
theorem low_byte (scaled : UInt32) : (scaled &&& 0xFF).toUInt8.toNat = scaled.toNat % 2 ^ 8 := by
  rw [UInt32.toNat_toUInt8, UInt32.toNat_and]
  change (scaled.toNat &&& 2 ^ 8 - 1) % 256 = _
  rw [Nat.and_two_pow_sub_one_eq_mod]
  omega

end Value

/-- Under a mask of adjacent bits the channel comes out left-aligned,
without a shift by the width of the type, just if the mask leaves the
top bit clear. -/
theorem extract_channel_iff {mask : UInt32} {lo n : Nat} (hMask : Contiguous mask lo n) (hNonzero : mask ≠ 0)
    (pixel : UInt32) :
    (extractChannel pixel mask).map UInt8.toNat = some (leftAligned (channelValue pixel lo n) n) ↔
      mask < 0x80000000 := by
  have hPos := hMask.pos hNonzero
  have hLe := hMask.le hPos
  rw [← hMask.top_iff hPos]
  unfold extractChannel
  rw [if_neg hNonzero, findShift_eq hMask hPos (Nat.zero_le lo)]
  simp only [Option.bind_eq_bind, Option.bind_some, countBits_eq hMask hPos (Nat.zero_le n)]
  by_cases hTop : lo + n < 32
  · obtain ⟨value, hShifted⟩ : ∃ y, shiftRight (pixel &&& mask) lo = some y := ⟨_, if_pos (by omega)⟩
    have hValue : value.toNat = channelValue pixel lo n := (toNat_shiftRight hShifted).trans (masked_value hMask pixel)
    have hBound : value.toNat < 2 ^ n := hValue ▸ Nat.mod_lt _ (Nat.two_pow_pos n)
    obtain ⟨scaled, hScaled, hAligned⟩ := rescale_eq hBound (by omega)
    refine iff_of_true ?_ hTop
    rw [if_pos hTop]
    simp only [Option.bind_some, hShifted, hScaled]
    change some (scaled &&& 0xFF).toUInt8.toNat = _
    rw [low_byte, hAligned, Nat.mod_eq_of_lt (leftAligned_lt hBound), hValue]
  · rw [if_neg hTop]
    exact iff_of_false nofun hTop

/-- A number of this form is the mask of `n` bits from `lo` on. -/
theorem contiguous_of_toNat {mask : UInt32} {lo n : Nat} (h : mask.toNat = (2 ^ n - 1) * 2 ^ lo) :
    Contiguous mask lo n := by
  intro i
  rw [h, Nat.testBit_mul_two_pow, Nat.testBit_two_pow_sub_one, ← Bool.decide_and, decide_eq_decide]
  omega

/-- The green channel of 5, 6 and 5 bits. -/
theorem extract_green : (extractChannel 0xFFFF 0x07E0).map UInt8.toNat = some 0xFC := by
  have hMask : Contiguous 0x07E0 5 6 := contiguous_of_toNat (by decide)
  exact (extract_channel_iff hMask (by decide) 0xFFFF).mpr (by decide)

/-- Red in the highest byte: the second loop shifts by 32. -/
theorem top_byte_undefined :
    Contiguous 0xFF000000 24 8 ∧ (0xFF000000 : UInt32) ≠ 0 ∧ extractChannel 0x11223344 0xFF000000 = none :=
  ⟨contiguous_of_toNat (by decide), by decide, by decide +kernel⟩

end NoCapKVM.Clipboard
