import NoCapKVM.Clipboard.ExtractChannel
import NoCapKVM.Memory.Buffer

/-! The pixels of a bitmap on the clipboard of Windows: the loop of `write_image` that packs
them and that of `read_image` that unpacks them. A number that its type does not hold has
no result. -/
namespace NoCapKVM.Clipboard

open Memory

def asInt (n : Nat) : Option Nat := if n < 2 ^ 31 then some n else none

def asSize (n : Nat) : Option Nat := if n < 2 ^ 64 then some n else none

def BI_RGB : Nat := 0
def BI_BITFIELDS : Nat := 3

def sizeofBitmapInfoHeader : Nat := 40

/-- `BITMAPINFOHEADER`, and the bytes after it. -/
structure Dib where
  biWidth : Int
  biHeight : Int
  biBitCount : Nat
  biCompression : Nat
  bytes : List UInt8

def copyByte (source : List UInt8) (i j : Nat) (target : List UInt8) : Option (List UInt8) := do
  store target j (← load source i)

/-- `dst[x * 3 + 0] = src[x * bytes_per_pixel + 2]` and so on, which makes BGR
of RGB and RGB of BGR. -/
def swapPixel (bytesPerPixel : Nat) (source : List UInt8) (src dst x : Nat) (target : List UInt8) :
    Option (List UInt8) := do
  let target ← copyByte source (src + (← asInt (x * bytesPerPixel + 2))) (dst + (← asInt (x * 3 + 0))) target
  let target ← copyByte source (src + (← asInt (x * bytesPerPixel + 1))) (dst + (← asInt (x * 3 + 1))) target
  copyByte source (src + (← asInt (x * bytesPerPixel + 0))) (dst + (← asInt (x * 3 + 2))) target

/-- `pixels` is bottom-up, and `rgb` top-down. -/
def packRow (rgb : List UInt8) (width height dstStride y : Nat) (pixels : List UInt8) : Option (List UInt8) := do
  let src ← asSize (y * width * 3)
  let dst ← asSize ((height - 1 - y) * dstStride)
  forLoop (swapPixel 3 rgb src dst) width pixels

/-- The block that is allocated is not cleared. Each row is
padded to 4 bytes. -/
def writePixels (garbage : Nat → UInt8) (rgb : List UInt8) (width height : Nat) : Option (List UInt8) := do
  let dstStride := (← asSize (width * 3 + 3)) / 4 * 4
  let imageSize ← asSize (dstStride * height)
  let _total ← asSize (sizeofBitmapInfoHeader + imageSize)
  forLoop (packRow rgb width height dstStride) height ((List.range imageSize).map garbage)

def writeDib (garbage : Nat → UInt8) (rgb : List UInt8) (width height : Nat) : Option Dib := do
  let pixels ← writePixels garbage rgb width height
  return { biWidth := width, biHeight := height, biBitCount := 24, biCompression := BI_RGB, bytes := pixels }

/-- `std::memcpy(&pixel, src, 4)` -/
def loadUInt32 (source : List UInt8) (i : Nat) : Option UInt32 := do
  let b₀ ← load source i
  let b₁ ← load source (i + 1)
  let b₂ ← load source (i + 2)
  let b₃ ← load source (i + 3)
  return b₀.toUInt32 ||| b₁.toUInt32 <<< 8 ||| b₂.toUInt32 <<< 16 ||| b₃.toUInt32 <<< 24

structure Masks where
  r : UInt32 := 0x00FF0000
  g : UInt32 := 0x0000FF00
  b : UInt32 := 0x000000FF

namespace Dib

def isRgb (dib : Dib) : Bool := dib.biCompression == BI_RGB && (dib.biBitCount == 24 || dib.biBitCount == 32)

def isBitfields32 (dib : Dib) : Bool := dib.biCompression == BI_BITFIELDS && dib.biBitCount == 32

/-- The masks, and where the pixels start. -/
def masks (dib : Dib) : Option (Masks × Nat) :=
  if dib.isBitfields32 then do
    let r ← loadUInt32 dib.bytes 0
    let g ← loadUInt32 dib.bytes 4
    let b ← loadUInt32 dib.bytes 8
    return (⟨r, g, b⟩, 12)
  else some ({}, 0)

def extractPixel (masks : Masks) (source : List UInt8) (src dst x : Nat) (rgb : List UInt8) : Option (List UInt8) := do
  let pixel ← loadUInt32 source (src + (← asInt (x * 4)))
  let rgb ← store rgb (dst + (← asInt (x * 3 + 0))) (← extractChannel pixel masks.r)
  let rgb ← store rgb (dst + (← asInt (x * 3 + 1))) (← extractChannel pixel masks.g)
  store rgb (dst + (← asInt (x * 3 + 2))) (← extractChannel pixel masks.b)

def unpackRow (dib : Dib) (masks : Masks) (pixels width height srcStride y : Nat) (rgb : List UInt8) :
    Option (List UInt8) := do
  let srcRow := if dib.biHeight < 0 then y else height - 1 - y
  let src ← asSize (srcRow * srcStride)
  let dst ← asSize (y * width * 3)
  forLoop (fun x rgb =>
    if dib.isBitfields32 then extractPixel masks dib.bytes (pixels + src) dst x rgb
    else swapPixel (dib.biBitCount / 8) dib.bytes (pixels + src) dst x rgb) width rgb

/-- A negative width makes sizes that nothing can allocate. -/
def width (dib : Dib) : Option Nat :=
  if dib.biWidth < 0 then none else asInt dib.biWidth.toNat

/-- The body of `if (is_rgb || is_bitfields32)`. -/
def readPixels (dib : Dib) : Option (List UInt8) := do
  let width ← dib.width
  let height ← asInt dib.biHeight.natAbs
  let srcStride := (← asSize (width * (dib.biBitCount / 8) + 3)) / 4 * 4
  let (masks, pixels) ← dib.masks
  let size ← asSize (width * height * 3)
  forLoop (dib.unpackRow masks pixels width height srcStride) height (List.replicate size 0)

end Dib

/-- The byte that is swapped with byte `j` of a row. -/
def swapped (j : Nat) : Nat := j / 3 * 3 + (2 - j % 3)

/-- To swap twice changes nothing, which is how a picture comes back with its
colours. -/
theorem swapped_swapped (j : Nat) : swapped (swapped j) = j := by
  unfold swapped
  omega

/-- A swap stays within its row. -/
theorem swapped_lt {j width : Nat} (h : j < width * 3) : swapped j < width * 3 := by
  unfold swapped
  omega

/-- Copying a byte between two buffers fills its place in the target and
nothing else. -/
theorem copyByte_filled {source target : List UInt8} {i j : Nat} (hSource : i < source.length)
    (hTarget : j < target.length) :
    ∃ after, copyByte source i j target = some after ∧ Filled j 1 (fun _ => source[i]?) target after := by
  obtain ⟨after, hStore, hFilled⟩ := store_filled (v := source[i]) hTarget
  refine ⟨after, ?_, hFilled.congr fun _ _ => (List.getElem?_eq_getElem hSource).symm⟩
  simp only [copyByte, load, List.getElem?_eq_getElem hSource, Option.bind_eq_bind, Option.bind_some, hStore]

theorem asInt_of_lt {n : Nat} (h : n < 2 ^ 31) : asInt n = some n := if_pos h

theorem asSize_of_lt {n : Nat} (h : n < 2 ^ 64) : asSize n = some n := if_pos h

/-- Within a pixel the first and the last byte are swapped. -/
theorem swapped_pixel (x : Nat) {k : Nat} (h : k < 3) : swapped (x * 3 + k) = x * 3 + (2 - k) := by
  unfold swapped
  omega

/-- Three bytes per pixel on both sides. -/
theorem swapPixel_filled {source target : List UInt8} {src dst x : Nat} (hSource : src + x * 3 + 3 ≤ source.length)
    (hTarget : dst + x * 3 + 3 ≤ target.length) (hInt : x * 3 + 3 < 2 ^ 31) :
    ∃ after, swapPixel 3 source src dst x target = some after ∧
      Filled (dst + x * 3) 3 (fun j => source[src + swapped (x * 3 + j)]?) target after := by
  have hByte (k : Nat) (hk : k < 3) (before : List UInt8) (hLength : before.length = target.length) :
      ∃ after, copyByte source (src + (x * 3 + (2 - k))) (dst + (x * 3 + k)) before = some after ∧
        Filled (dst + x * 3 + k) 1 (fun j => source[src + swapped (x * 3 + (k + j))]?) before after := by
    obtain ⟨after, hCopy, hFilled⟩ := @copyByte_filled source before (src + (x * 3 + (2 - k))) (dst + (x * 3 + k))
      (by omega) (by omega)
    rw [← Nat.add_assoc dst] at hFilled
    refine ⟨after, hCopy, hFilled.congr ?_⟩
    intro j hj
    obtain rfl : j = 0 := by omega
    rw [Nat.add_zero, swapped_pixel x hk]
  obtain ⟨blue, hBlue, hFirst⟩ := hByte 0 (by decide) target rfl
  obtain ⟨green, hGreen, hSecond⟩ := hByte 1 (by decide) blue hFirst.length
  obtain ⟨red, hRed, hThird⟩ := hByte 2 (by decide) green (hSecond.length.trans hFirst.length)
  have hTwo : Filled (dst + x * 3) (1 + 1) (fun j => source[src + swapped (x * 3 + j)]?) target green :=
    (hFirst.congr fun j _ => by rw [Nat.zero_add]).append hSecond
  refine ⟨red, ?_, hTwo.append hThird⟩
  simp only [swapPixel, Option.bind_eq_bind]
  rw [asInt_of_lt (show x * 3 + 2 < 2 ^ 31 by omega), asInt_of_lt (show x * 3 + 1 < 2 ^ 31 by omega),
    asInt_of_lt (show x * 3 + 0 < 2 ^ 31 by omega)]
  simp only [Option.bind_some]
  rw [hBlue]
  simp only [Option.bind_some]
  rw [hGreen]
  exact hRed

/-- A row of pixels. -/
theorem swapRow_filled {source target : List UInt8} {src dst width : Nat} (hSource : src + width * 3 ≤ source.length)
    (hTarget : dst + width * 3 ≤ target.length) (hInt : width * 3 < 2 ^ 31) :
    ∃ after, forLoop (swapPixel 3 source src dst) width target = some after ∧
      Filled dst (width * 3) (fun j => source[src + swapped j]?) target after := by
  apply forLoop_filled
  intro x hx before hLength
  exact swapPixel_filled (by omega) (by omega) (by omega)

def stride (width : Nat) : Nat := (width * 3 + 3) / 4 * 4

/-- The types hold what the loops compute: an `int` the bytes of a row and the
number of rows, and a `size_t` the two buffers. -/
structure SizesFit (width height : Nat) : Prop where
  row : width * 3 < 2 ^ 31
  rows : height < 2 ^ 31
  block : sizeofBitmapInfoHeader + stride width * height < 2 ^ 64
  rgb : width * height * 3 < 2 ^ 64

/-- The padding makes a row no shorter. -/
theorem row_le_stride (width : Nat) : width * 3 ≤ stride width := by
  unfold stride
  omega

section Rows

variable (width : Nat) {height y : Nat}

/-- A row lies in its buffer. -/
theorem row_inside (length : Nat) (hy : y < height) : y * length + length ≤ height * length := by
  calc
    y * length + length = (y + 1) * length := (Nat.succ_mul y length).symm
    _ ≤ height * length := Nat.mul_le_mul_right length hy

/-- A row of the picture lies within its bytes. -/
theorem row_inside_rgb (hy : y < height) : y * width * 3 + width * 3 ≤ width * height * 3 := by
  have hRow := row_inside (width * 3) hy
  calc
    y * width * 3 + width * 3 = y * (width * 3) + width * 3 := by rw [Nat.mul_assoc]
    _ ≤ height * (width * 3) := hRow
    _ = width * height * 3 := by rw [← Nat.mul_assoc, Nat.mul_comm height]

/-- A row of the block lies within the block, counted from below. -/
theorem row_inside_block (hy : y < height) :
    (height - 1 - y) * stride width + width * 3 ≤ stride width * height := by
  have hRow := row_inside (stride width) (show height - 1 - y < height by omega)
  have hStride := row_le_stride width
  rw [Nat.mul_comm height] at hRow
  omega

/-- Earlier rows are higher in the picture, and lie behind this one. -/
theorem rows_apart {earlier : Nat} (hy : y < height) (hEarlier : earlier < y) :
    (height - 1 - y) * stride width + width * 3 ≤ (height - 1 - earlier) * stride width := by
  have hRow := row_inside (stride width) (show height - 1 - y < height - 1 - earlier by omega)
  have hStride := row_le_stride width
  omega

end Rows

/-- The first rows of the picture are there, bottom-up, padded and swapped. -/
structure Packed (rgb : List UInt8) (width height rows : Nat) (pixels : List UInt8) : Prop where
  length : pixels.length = stride width * height
  row : ∀ y < rows, ∀ j < width * 3, pixels[(height - 1 - y) * stride width + j]? = rgb[y * width * 3 + swapped j]?

/-- Packing a row succeeds within its bounds and fills exactly the bytes of
that row. -/
theorem packRow_filled {rgb pixels : List UInt8} {width height y : Nat} (hFits : SizesFit width height)
    (hRgb : rgb.length = width * height * 3) (hPixels : pixels.length = stride width * height) (hy : y < height) :
    ∃ after, packRow rgb width height (stride width) y pixels = some after ∧
      Filled ((height - 1 - y) * stride width) (width * 3) (fun j => rgb[y * width * 3 + swapped j]?) pixels after := by
  have hSource := row_inside_rgb width hy
  have hTarget := row_inside_block width hy
  obtain ⟨hRow, -, hBlock, hTotal⟩ := hFits
  obtain ⟨after, hLoop, hFilled⟩ := @swapRow_filled rgb pixels (y * width * 3) ((height - 1 - y) * stride width) width
    (by omega) (by omega) hRow
  refine ⟨after, ?_, hFilled⟩
  simp only [packRow, Option.bind_eq_bind]
  rw [asSize_of_lt (by omega), asSize_of_lt (by omega)]
  exact hLoop

/-- After all rows the whole picture is in the block, whatever was
there before. -/
theorem packRows_packed {rgb start : List UInt8} {width height : Nat} (hFits : SizesFit width height)
    (hRgb : rgb.length = width * height * 3) (hStart : start.length = stride width * height) :
    ∃ pixels, forLoop (packRow rgb width height (stride width)) height start = some pixels ∧
      Packed rgb width height height pixels := by
  apply forLoop_inv (Packed rgb width height)
  · exact ⟨hStart, nofun⟩
  · intro y hy pixels hPacked
    obtain ⟨after, hPack, hFilled⟩ := packRow_filled hFits hRgb hPacked.length hy
    refine ⟨after, hPack, hFilled.length.trans hPacked.length, ?_⟩
    intro row hRow j hj
    rcases Nat.lt_succ_iff_lt_or_eq.mp hRow with hEarlier | rfl
    · have hApart := rows_apart width hy hEarlier
      rw [hFilled.outside _ (.inr (by omega))]
      exact hPacked.row row hEarlier j hj
    · exact hFilled.inside j hj

/-- So it is for every picture whose sizes fit, and no write goes
out of bounds. -/
theorem writePixels_packed (garbage : Nat → UInt8) {rgb : List UInt8} {width height : Nat}
    (hFits : SizesFit width height) (hRgb : rgb.length = width * height * 3) :
    ∃ pixels, writePixels garbage rgb width height = some pixels ∧ Packed rgb width height height pixels := by
  have hStart : ((List.range (stride width * height)).map garbage).length = stride width * height := by simp
  obtain ⟨pixels, hLoop, hPacked⟩ := packRows_packed hFits hRgb hStart
  refine ⟨pixels, ?_, hPacked⟩
  obtain ⟨hRow, -, hBlock, -⟩ := hFits
  unfold sizeofBitmapInfoHeader at hBlock
  simp only [writePixels, Option.bind_eq_bind]
  rw [asSize_of_lt (by omega)]
  simp only [Option.bind_some]
  change ((asSize (stride width * height)).bind _) = _
  rw [asSize_of_lt (by omega)]
  simp only [Option.bind_some, sizeofBitmapInfoHeader]
  rw [asSize_of_lt hBlock]
  exact hLoop

/-- The dib that `write_image` puts on the clipboard. -/
def packedDib (pixels : List UInt8) (width height : Nat) : Dib :=
  { biWidth := width, biHeight := height, biBitCount := 24, biCompression := BI_RGB, bytes := pixels }

/-- A pixel on the clipboard has three bytes. -/
theorem packedDib_bytesPerPixel (pixels : List UInt8) (width height : Nat) :
    (packedDib pixels width height).biBitCount / 8 = 3 := by
  simp [packedDib]

/-- Unpacking a row gives back the bytes that were packed, in
their old order. -/
theorem unpackRow_filled {rgb pixels out : List UInt8} {width height y : Nat} (hFits : SizesFit width height)
    (hPacked : Packed rgb width height height pixels) (hOut : out.length = width * height * 3) (hy : y < height) :
    ∃ after, (packedDib pixels width height).unpackRow {} 0 width height (stride width) y out = some after ∧
      Filled (y * (width * 3)) (width * 3) (fun j => rgb[y * (width * 3) + j]?) out after := by
  have hTarget := row_inside_rgb width hy
  have hSource := row_inside_block width hy
  obtain ⟨hRow, -, hBlock, hTotal⟩ := hFits
  have hPixels := hPacked.length
  obtain ⟨after, hLoop, hFilled⟩ := @swapRow_filled pixels out ((height - 1 - y) * stride width) (y * width * 3) width
    (by omega) (by omega) hRow
  have hBottomUp : (if (packedDib pixels width height).biHeight < 0 then y else height - 1 - y) = height - 1 - y :=
    if_neg (Int.not_lt.mpr (Int.natCast_nonneg height))
  have hPlain : (packedDib pixels width height).isBitfields32 = false := rfl
  refine ⟨after, ?_, ?_⟩
  · unfold Dib.unpackRow
    rw [hBottomUp]
    simp only [hPlain, packedDib_bytesPerPixel, Bool.false_eq_true, if_false, Option.bind_eq_bind, Nat.zero_add]
    rw [asSize_of_lt (by omega), asSize_of_lt (by omega)]
    exact hLoop
  · rw [← Nat.mul_assoc]
    apply hFilled.congr
    intro j hj
    rw [hPacked.row y hy (swapped j) (swapped_lt hj), swapped_swapped]

/-- So after all rows the picture is back. -/
theorem unpackRows {rgb pixels : List UInt8} {width height : Nat} (hFits : SizesFit width height)
    (hRgb : rgb.length = width * height * 3) (hPacked : Packed rgb width height height pixels) :
    forLoop ((packedDib pixels width height).unpackRow {} 0 width height (stride width)) height
      (List.replicate (width * height * 3) 0) = some rgb := by
  have hRows : ∀ y < height, ∀ before : List UInt8, before.length = (List.replicate (width * height * 3) (0 : UInt8)).length →
      ∃ after, (packedDib pixels width height).unpackRow {} 0 width height (stride width) y before = some after ∧
        Filled (0 + y * (width * 3)) (width * 3) (fun j => rgb[y * (width * 3) + j]?) before after := by
    intro y hy before hBefore
    rw [Nat.zero_add]
    exact unpackRow_filled hFits hPacked (hBefore.trans List.length_replicate) hy
  obtain ⟨out, hLoop, hFilled⟩ := @forLoop_filled _ _ _ _ _ (fun j => rgb[j]?) _ hRows
  have hSize : height * (width * 3) = width * height * 3 := by rw [← Nat.mul_assoc, Nat.mul_comm height]
  have hOut : out.length = rgb.length := by rw [hFilled.length, List.length_replicate, hRgb]
  rw [hLoop, Option.some.injEq]
  apply List.ext_getElem?
  intro i
  by_cases hi : i < width * height * 3
  · have hInside := hFilled.inside i (hSize ▸ hi)
    rwa [Nat.zero_add] at hInside
  · rw [List.getElem?_eq_none (by omega), List.getElem?_eq_none (by omega)]

/-- What was packed is unpacked again, and no access of the two loops is
outside its buffer. -/
theorem dib_round_trip (garbage : Nat → UInt8) {rgb : List UInt8} {width height : Nat} (hFits : SizesFit width height)
    (hRgb : rgb.length = width * height * 3) :
    ∃ dib, writeDib garbage rgb width height = some dib ∧ dib.isRgb = true ∧ dib.readPixels = some rgb := by
  obtain ⟨pixels, hWrite, hPacked⟩ := writePixels_packed garbage hFits hRgb
  have hUnpack := unpackRows hFits hRgb hPacked
  obtain ⟨hRow, hRows, hBlock, hTotal⟩ := hFits
  refine ⟨packedDib pixels width height, ?_, rfl, ?_⟩
  · simp only [writeDib, hWrite]
    rfl
  · have hWidth : (packedDib pixels width height).width = some width :=
      (if_neg (Int.not_lt.mpr (Int.natCast_nonneg width))).trans (asInt_of_lt (show width < 2 ^ 31 by omega))
    have hHeight : asInt (packedDib pixels width height).biHeight.natAbs = some height := asInt_of_lt hRows
    have hMasks : (packedDib pixels width height).masks = some ({}, 0) := rfl
    unfold Dib.readPixels
    simp only [Option.bind_eq_bind, hWidth, hHeight, packedDib_bytesPerPixel, hMasks, Option.bind_some]
    rw [asSize_of_lt (show width * 3 + 3 < 2 ^ 64 by omega), asSize_of_lt hTotal]
    exact hUnpack

/-- A column of two pixels comes back, although its rows are padded. -/
theorem dib_round_trip_column :
    ∃ dib, writeDib (fun _ => 0xCD) [1, 2, 3, 4, 5, 6] 1 2 = some dib ∧ dib.isRgb = true ∧
      dib.readPixels = some [1, 2, 3, 4, 5, 6] :=
  dib_round_trip (fun _ => 0xCD) ⟨by decide, by decide, by decide, by decide⟩ rfl

end NoCapKVM.Clipboard
