import NoCapKVM.Codec.LittleEndian
import Mathlib.Data.List.Sort
import Mathlib.Tactic.Ring

/-! `ico_decode.cpp`: a frame of a Windows icon file as ARGB pixels. Every access is checked, and
one outside of its buffer has no result. A file that is not decoded has the result `none`. -/
namespace NoCapKVM.App

open Codec Memory

/-- `size_t` -/
def asSizeT (n : Nat) : Nat := n % 18446744073709551616

structure DirEntry where
  width : Int
  height : Int
  bitCount : UInt16
  bytesInRes : UInt32
  imageOffset : UInt32

structure DecodedIcon where
  width : Int
  height : Int
  argb32Be : List UInt8

def kPngMagic : List UInt8 := [0x89, 80, 78, 71, 0x0D, 0x0A, 0x1A, 0x0A]

def isPng (b : List UInt8) (off : Nat) : Option Bool :=
  if b.length < asSizeT (off + kPngMagic.length) then some false
  else do
    let bytes ← loads b off kPngMagic.length
    return bytes == kPngMagic

/-- One pixel, BGRA in the file and ARGB in the icon. -/
def convertPixel (b : List UInt8) (srcRow dstRow x : Nat) (argb : List UInt8) : Option (List UInt8) := do
  let src := srcRow + x * 4
  let dst := dstRow + x * 4
  let blue ← load b src
  let green ← load b (src + 1)
  let red ← load b (src + 2)
  let alpha ← load b (src + 3)
  let argb ← store argb dst alpha
  let argb ← store argb (dst + 1) red
  let argb ← store argb (dst + 2) green
  store argb (dst + 3) blue

/-- The file has the bottom row first. -/
def convertRow (b : List UInt8) (pixelsOff rowStride width height y : Nat) (argb : List UInt8) :
    Option (List UInt8) :=
  let srcRow := asSizeT (pixelsOff + rowStride * (height - 1 - y))
  let dstRow := asSizeT (rowStride * y)
  forLoop (convertPixel b srcRow dstRow) width argb

def decodeBmpFrame (b : List UInt8) (entry : DirEntry) : Option (Option DecodedIcon) := do
  let off := entry.imageOffset.toNat
  if asSizeT (off + 40) > b.length then return none
  let headerSize ← loadLe32 b off
  if headerSize < 40 then return none
  let bmpWidth := (← loadLe32 b (off + 4)).toInt32.toInt
  let bmpHeightX2 := (← loadLe32 b (off + 8)).toInt32.toInt
  let bitCount ← loadLe16 b (off + 14)
  let compression ← loadLe32 b (off + 16)
  if bitCount ≠ 32 ∨ compression ≠ 0 then return none
  if bmpWidth ≤ 0 ∨ bmpHeightX2 ≤ 0 ∨ bmpHeightX2.tmod 2 ≠ 0 then return none
  let height := bmpHeightX2.tdiv 2
  let pixelsOff := asSizeT (off + headerSize.toNat)
  let rowStride := asSizeT (bmpWidth.toNat * 4)
  let xorBytes := asSizeT (rowStride * height.toNat)
  if asSizeT (pixelsOff + xorBytes) > b.length then return none
  let argb ← forLoop (convertRow b pixelsOff rowStride bmpWidth.toNat height.toNat) height.toNat
    (List.replicate xorBytes 0)
  return some { width := bmpWidth, height := height, argb32Be := argb }

def loadDirEntry (b : List UInt8) (i : Nat) : Option DirEntry := do
  let eoff := 6 + i * 16
  let width ← load b eoff
  let height ← load b (eoff + 1)
  let bitCount ← loadLe16 b (eoff + 6)
  let bytesInRes ← loadLe32 b (eoff + 8)
  let imageOffset ← loadLe32 b (eoff + 12)
  return { width := if width = 0 then 256 else width.toNat, height := if height = 0 then 256 else height.toNat,
           bitCount := bitCount, bytesInRes := bytesInRes, imageOffset := imageOffset }

/-- The comparison that the entries are sorted with. -/
def closer (a b : DirEntry) : Bool := (a.width - 32).natAbs < (b.width - 32).natAbs

/-- `std::sort`: the order of elements that compare equal is open. -/
structure StdSort {α : Type} (less : α → α → Bool) where
  sort : List α → List α
  perm : ∀ xs, (sort xs).Perm xs
  sorted : ∀ xs, (sort xs).Pairwise fun a b => less b a = false

/-- The first entry that is in the file, no PNG, and can be decoded. The sum
wraps in 32 bits. -/
def firstDecoded (b : List UInt8) : List DirEntry → Option (Option DecodedIcon)
  | [] => some none
  | e :: entries =>
      if (e.imageOffset + e.bytesInRes).toNat > b.length then firstDecoded b entries
      else do
        if ← isPng b e.imageOffset.toNat then firstDecoded b entries
        else
          match ← decodeBmpFrame b e with
          | some icon => return some icon
          | none => firstDecoded b entries

/-- `load_ico_as_argb32` on the content of the file. -/
def loadIcoAsArgb32 (std : StdSort closer) (b : List UInt8) : Option (Option DecodedIcon) := do
  if b.length < 6 then return none
  if (← loadLe16 b 0) ≠ 0 then return none
  if (← loadLe16 b 2) ≠ 1 then return none
  let count ← loadLe16 b 4
  if count = 0 ∨ 6 + count.toNat * 16 > b.length then return none
  let entries ← (List.range count.toNat).mapM (loadDirEntry b)
  firstDecoded b (std.sort entries)

variable {b argb : List UInt8}

/-- Where byte `j` of a row comes from. -/
def swizzled (j : Nat) : Nat := j / 4 * 4 + (3 - j % 4)

/-- Converting a pixel within both buffers fills its four bytes, in the order
of the target. -/
theorem convertPixel_filled {srcRow dstRow x : Nat} (hSource : srcRow + x * 4 + 4 ≤ b.length)
    (hTarget : dstRow + x * 4 + 4 ≤ argb.length) :
    ∃ after, convertPixel b srcRow dstRow x argb = some after ∧
      Filled (dstRow + x * 4) 4 (fun j => b[srcRow + swizzled (x * 4 + j)]?) argb after := by
  have hByte {k : Nat} {v : UInt8} (hV : b[srcRow + x * 4 + (3 - k)]? = some v) (hk : k < 4) {before : List UInt8}
      (hLength : before.length = argb.length) :
      ∃ after, store before (dstRow + x * 4 + k) v = some after ∧
        Filled (dstRow + x * 4 + k) 1 (fun j => b[srcRow + swizzled (x * 4 + (k + j))]?) before after := by
    obtain ⟨after, hStore, hFilled⟩ := @store_filled _ before (dstRow + x * 4 + k) v (by omega)
    refine ⟨after, hStore, hFilled.congr ?_⟩
    intro j hj
    have hFrom : srcRow + swizzled (x * 4 + (k + j)) = srcRow + x * 4 + (3 - k) := by
      unfold swizzled
      omega
    rw [hFrom, hV]
  obtain ⟨blue, hBlue⟩ : ∃ v, b[srcRow + x * 4]? = some v := ⟨_, List.getElem?_eq_getElem (by omega)⟩
  obtain ⟨green, hGreen⟩ : ∃ v, b[srcRow + x * 4 + 1]? = some v := ⟨_, List.getElem?_eq_getElem (by omega)⟩
  obtain ⟨red, hRed⟩ : ∃ v, b[srcRow + x * 4 + 2]? = some v := ⟨_, List.getElem?_eq_getElem (by omega)⟩
  obtain ⟨alpha, hAlpha⟩ : ∃ v, b[srcRow + x * 4 + 3]? = some v := ⟨_, List.getElem?_eq_getElem (by omega)⟩
  obtain ⟨a₁, hStore₁, h₁⟩ := hByte (k := 0) hAlpha (by decide) rfl
  obtain ⟨a₂, hStore₂, h₂⟩ := hByte (k := 1) hRed (by decide) h₁.length
  obtain ⟨a₃, hStore₃, h₃⟩ := hByte (k := 2) hGreen (by decide) (h₂.length.trans h₁.length)
  obtain ⟨a₄, hStore₄, h₄⟩ := hByte (k := 3) hBlue (by decide) (h₃.length.trans (h₂.length.trans h₁.length))
  have hTwo : Filled (dstRow + x * 4) (1 + 1) (fun j => b[srcRow + swizzled (x * 4 + j)]?) argb a₂ :=
    (h₁.congr fun j _ => by rw [Nat.zero_add]).append h₂
  have hThree := hTwo.append h₃
  refine ⟨a₄, ?_, hThree.append h₄⟩
  rw [Nat.add_zero] at hStore₁
  simp only [convertPixel, load, hBlue, hGreen, hRed, hAlpha, hStore₁, hStore₂, hStore₃, hStore₄, Option.bind_eq_bind,
    Option.bind_some]

/-- So does a row with all of its pixels. -/
theorem convertPixels_filled {srcRow dstRow width : Nat} (hSource : srcRow + width * 4 ≤ b.length)
    (hTarget : dstRow + width * 4 ≤ argb.length) :
    ∃ after, forLoop (convertPixel b srcRow dstRow) width argb = some after ∧
      Filled dstRow (width * 4) (fun j => b[srcRow + swizzled j]?) argb after := by
  apply forLoop_filled
  intro x hx before hLength
  exact convertPixel_filled (by omega) (by omega)

/-- Where byte `j` of the icon comes from, counted from the first pixel
in the file. -/
def flipped (rowStride height j : Nat) : Nat := rowStride * (height - 1 - j / rowStride) + swizzled (j % rowStride)

theorem asSizeT_of_lt {n : Nat} (h : n < 18446744073709551616) : asSizeT n = n := Nat.mod_eq_of_lt h

/-- The rows of the file lie behind one another. -/
theorem convertRows_filled {pixelsOff width height : Nat} (hSize : pixelsOff + width * 4 * height < 18446744073709551616)
    (hSource : pixelsOff + width * 4 * height ≤ b.length) (hTarget : argb.length = width * 4 * height) :
    ∃ after, forLoop (convertRow b pixelsOff (width * 4) width height) height argb = some after ∧
      Filled 0 (height * (width * 4)) (fun j => b[pixelsOff + flipped (width * 4) height j]?) argb after := by
  apply forLoop_filled
  intro y hy before hLength
  have hBelow : width * 4 * (height - 1 - y) + width * 4 ≤ width * 4 * height := by
    rw [← Nat.mul_succ]
    exact Nat.mul_le_mul_left _ (by omega)
  have hAbove : width * 4 * y + width * 4 ≤ width * 4 * height := by
    rw [← Nat.mul_succ]
    exact Nat.mul_le_mul_left _ hy
  have hSrcRow : asSizeT (pixelsOff + width * 4 * (height - 1 - y)) = pixelsOff + width * 4 * (height - 1 - y) :=
    asSizeT_of_lt (by omega)
  have hDstRow : asSizeT (width * 4 * y) = width * 4 * y := asSizeT_of_lt (by omega)
  obtain ⟨after, hLoop, hFilled⟩ := @convertPixels_filled b before (pixelsOff + width * 4 * (height - 1 - y))
    (width * 4 * y) width (by omega) (by omega)
  rw [convertRow, hSrcRow, hDstRow]
  refine ⟨after, hLoop, ?_⟩
  rw [Nat.zero_add, Nat.mul_comm y]
  apply hFilled.congr
  intro j hj
  have hRow : (width * 4 * y + j) / (width * 4) = y := by
    rw [Nat.mul_add_div (Nat.lt_of_le_of_lt (Nat.zero_le j) hj), Nat.div_eq_of_lt hj, Nat.add_zero]
  have hColumn : (width * 4 * y + j) % (width * 4) = j := by
    rw [Nat.mul_add_mod, Nat.mod_eq_of_lt hj]
  rw [flipped, hRow, hColumn, ← Nat.add_assoc]

/-- The icon has its `width * height` pixels, and pixel `(x, y)` is the
one at column `x` of row `height - 1 - y` of the BGRA pixels that start
at `pixels`. -/
structure Shows (b : List UInt8) (pixels : Nat) (icon : DecodedIcon) : Prop where
  width : 0 < icon.width
  height : 0 < icon.height
  length : (icon.argb32Be.length : Int) = icon.width * icon.height * 4
  pixel : ∀ x y : Nat, (x : Int) < icon.width → (y : Int) < icon.height →
    let src := pixels + ((icon.height.toNat - 1 - y) * icon.width.toNat + x) * 4
    let dst := (y * icon.width.toNat + x) * 4
    src + 4 ≤ b.length ∧ icon.argb32Be[dst]? = b[src + 3]? ∧ icon.argb32Be[dst + 1]? = b[src + 2]? ∧
      icon.argb32Be[dst + 2]? = b[src + 1]? ∧ icon.argb32Be[dst + 3]? = b[src]?

/-- A pixel lies in the row that is as far from below, with its bytes in the
other order. -/
theorem flipped_pixel {width height x y k : Nat} (hx : x < width) (hk : k < 4) :
    flipped (width * 4) height ((y * width + x) * 4 + k) = ((height - 1 - y) * width + x) * 4 + (3 - k) := by
  have hSplit : (y * width + x) * 4 + k = width * 4 * y + (x * 4 + k) := by ring
  have hColumn : x * 4 + k < width * 4 := by omega
  have hSwizzled : swizzled (x * 4 + k) = x * 4 + (3 - k) := by
    unfold swizzled
    omega
  rw [flipped, hSplit, Nat.mul_add_div (by omega), Nat.div_eq_of_lt hColumn, Nat.add_zero, Nat.mul_add_mod,
    Nat.mod_eq_of_lt hColumn, hSwizzled]
  ring

/-- A pixel of a row lies in the picture. -/
theorem pixel_inside {width height x y : Nat} (hx : x < width) (hy : y < height) :
    (y * width + x) * 4 + 4 ≤ width * 4 * height := by
  calc
    (y * width + x) * 4 + 4 = (y * width + (x + 1)) * 4 := by ring
    _ ≤ (y * width + width) * 4 := Nat.mul_le_mul_right 4 (Nat.add_le_add_left hx _)
    _ = (y + 1) * (width * 4) := by ring
    _ ≤ height * (width * 4) := Nat.mul_le_mul_right _ hy
    _ = width * 4 * height := Nat.mul_comm _ _

/-- After all rows the icon shows the pixels of its entry. -/
theorem convertRows_shows {pixelsOff width height : Nat} {icon : List UInt8} (hWidth : 0 < width) (hHeight : 0 < height)
    (hSource : pixelsOff + width * 4 * height ≤ b.length) (hLength : icon.length = width * 4 * height)
    (hFilled : Filled 0 (height * (width * 4)) (fun j => b[pixelsOff + flipped (width * 4) height j]?) argb icon) :
    Shows b pixelsOff { width := width, height := height, argb32Be := icon } := by
  refine ⟨Int.natCast_pos.mpr hWidth, Int.natCast_pos.mpr hHeight, ?_, ?_⟩
  · rw [hLength]
    push_cast
    ring
  · intro x y hx hy
    have hx' : x < width := Int.ofNat_lt.mp hx
    have hy' : y < height := Int.ofNat_lt.mp hy
    simp only [Int.toNat_natCast]
    have hTarget := pixel_inside hx' hy'
    have hInside := pixel_inside hx' (show height - 1 - y < height by omega)
    have hPixel {k : Nat} (hk : k < 4) : icon[(y * width + x) * 4 + k]? =
        b[pixelsOff + ((height - 1 - y) * width + x) * 4 + (3 - k)]? := by
      have hByte := hFilled.inside ((y * width + x) * 4 + k) (by rw [Nat.mul_comm height]; omega)
      rw [Nat.zero_add, flipped_pixel hx' hk, ← Nat.add_assoc] at hByte
      exact hByte
    exact ⟨by omega, hPixel (by decide : 0 < 4), hPixel (by decide : 1 < 4), hPixel (by decide : 2 < 4),
      hPixel (by decide : 3 < 4)⟩

/-- A frame that is decoded is shown from behind its header on. -/
theorem decodeBmpFrame_spec (b : List UInt8) (entry : DirEntry) :
    ∃ result, decodeBmpFrame b entry = some result ∧ ∀ icon, result = some icon →
      ∃ headerSize, loadLe32 b entry.imageOffset.toNat = some headerSize ∧
        Shows b (entry.imageOffset.toNat + headerSize.toNat) icon := by
  have hOffset := entry.imageOffset.toNat_lt
  unfold decodeBmpFrame
  generalize entry.imageOffset.toNat = off at hOffset ⊢
  dsimp only
  have hHeaderEnd : asSizeT (off + 40) = off + 40 := asSizeT_of_lt (by omega)
  by_cases hShort : off + 40 > b.length
  · rw [hHeaderEnd, if_pos hShort]
    exact ⟨none, rfl, nofun⟩
  · obtain ⟨headerSize, hHeader⟩ := loadLe32_inside (show off + 4 ≤ b.length by omega)
    obtain ⟨rawWidth, hRawWidth⟩ := loadLe32_inside (show off + 4 + 4 ≤ b.length by omega)
    obtain ⟨rawHeight, hRawHeight⟩ := loadLe32_inside (show off + 8 + 4 ≤ b.length by omega)
    obtain ⟨bitCount, hBitCount⟩ := loadLe16_inside (show off + 14 + 2 ≤ b.length by omega)
    obtain ⟨compression, hCompression⟩ := loadLe32_inside (show off + 16 + 4 ≤ b.length by omega)
    simp only [hHeaderEnd, hHeader, hRawWidth, hRawHeight, hBitCount, hCompression, Option.bind_eq_bind,
      Option.bind_some]
    rw [if_neg hShort]
    by_cases hSmallHeader : headerSize < 40
    · rw [if_pos hSmallHeader]
      exact ⟨none, rfl, nofun⟩
    rw [if_neg hSmallHeader]
    by_cases hFormat : bitCount ≠ 32 ∨ compression ≠ 0
    · rw [if_pos hFormat]
      exact ⟨none, rfl, nofun⟩
    rw [if_neg hFormat]
    have hWidthLt := rawWidth.toInt32.toInt_lt
    have hHeightLt := rawHeight.toInt32.toInt_lt
    generalize rawWidth.toInt32.toInt = bmpWidth at hWidthLt ⊢
    generalize rawHeight.toInt32.toInt = bmpHeightX2 at hHeightLt ⊢
    by_cases hSize : bmpWidth ≤ 0 ∨ bmpHeightX2 ≤ 0 ∨ bmpHeightX2.tmod 2 ≠ 0
    · rw [if_pos hSize]
      exact ⟨none, rfl, nofun⟩
    rw [if_neg hSize]
    obtain ⟨hWidth, hHeight, hEven⟩ := by simpa only [not_or, not_le, not_not] using hSize
    obtain ⟨width, rfl⟩ := Int.eq_ofNat_of_zero_le hWidth.le
    obtain ⟨heightX2, rfl⟩ := Int.eq_ofNat_of_zero_le hHeight.le
    have hHalf : (heightX2 : Int).tdiv 2 = ((heightX2 / 2 : Nat) : Int) := rfl
    have hEven' : heightX2 % 2 = 0 := Int.ofNat.inj hEven
    rw [hHalf, Int.toNat_natCast, Int.toNat_natCast]
    generalize hHeightEq : heightX2 / 2 = height
    have hHeaderLt := headerSize.toNat_lt
    -- the sizes are far below 2^64
    have hPixels : width * 4 * height ≤ 8589934592 * 1073741824 := Nat.mul_le_mul (by omega) (by omega)
    have hPixelsOff : asSizeT (off + headerSize.toNat) = off + headerSize.toNat := asSizeT_of_lt (by omega)
    have hStride : asSizeT (width * 4) = width * 4 := asSizeT_of_lt (by omega)
    have hXorBytes : asSizeT (width * 4 * height) = width * 4 * height := asSizeT_of_lt (by omega)
    have hEnd : asSizeT (off + headerSize.toNat + width * 4 * height) = off + headerSize.toNat + width * 4 * height :=
      asSizeT_of_lt (by omega)
    rw [hStride, hXorBytes, hPixelsOff, hEnd]
    by_cases hOutside : off + headerSize.toNat + width * 4 * height > b.length
    · rw [if_pos hOutside]
      exact ⟨none, rfl, nofun⟩
    rw [if_neg hOutside]
    obtain ⟨icon, hLoop, hFilled⟩ := @convertRows_filled b (List.replicate (width * 4 * height) 0)
      (off + headerSize.toNat) width height (by omega) (by omega) List.length_replicate
    rw [hLoop, Option.bind_some]
    refine ⟨_, rfl, ?_⟩
    rintro _ ⟨⟩
    refine ⟨headerSize, rfl, convertRows_shows (by omega) (by omega) (by omega) ?_ hFilled⟩
    rw [hFilled.length, List.length_replicate]

/-- Looking for a PNG never reads out of bounds. -/
theorem isPng_total (b : List UInt8) (off : UInt32) : ∃ png, isPng b off.toNat = some png := by
  have hOffset := off.toNat_lt
  have hEnd : asSizeT (off.toNat + kPngMagic.length) = off.toNat + kPngMagic.length := by
    apply asSizeT_of_lt
    change off.toNat + 8 < _
    omega
  unfold isPng
  rw [hEnd]
  split
  · exact ⟨false, rfl⟩
  · rename_i hInside
    rw [loads_inside (Nat.le_of_not_lt hInside)]
    exact ⟨_, rfl⟩

/-- The entries are tried one after the other, and what is shown comes from
the first one that can be decoded. -/
theorem firstDecoded_spec (b : List UInt8) (entries : List DirEntry) :
    ∃ result, firstDecoded b entries = some result ∧ ∀ icon, result = some icon →
      ∃ e ∈ entries, ∃ headerSize, loadLe32 b e.imageOffset.toNat = some headerSize ∧
        Shows b (e.imageOffset.toNat + headerSize.toNat) icon := by
  induction entries with
  | nil => exact ⟨none, rfl, nofun⟩
  | cons e entries ih =>
      obtain ⟨later, hLater, hShows⟩ := ih
      have hSkip : ∃ result, firstDecoded b entries = some result ∧ ∀ icon, result = some icon →
          ∃ e' ∈ e :: entries, ∃ headerSize, loadLe32 b e'.imageOffset.toNat = some headerSize ∧
            Shows b (e'.imageOffset.toNat + headerSize.toNat) icon := by
        refine ⟨later, hLater, fun icon hIcon => ?_⟩
        obtain ⟨e', hMem, hShown⟩ := hShows icon hIcon
        exact ⟨e', List.mem_cons_of_mem e hMem, hShown⟩
      unfold firstDecoded
      by_cases hRange : (e.imageOffset + e.bytesInRes).toNat > b.length
      · rw [if_pos hRange]
        exact hSkip
      rw [if_neg hRange]
      obtain ⟨png, hPng⟩ := isPng_total b e.imageOffset
      rw [hPng]
      cases png with
      | true => exact hSkip
      | false =>
          obtain ⟨decoded, hDecoded, hShown⟩ := decodeBmpFrame_spec b e
          simp only [hDecoded, Option.bind_eq_bind, Option.bind_some, Bool.false_eq_true, if_false]
          cases decoded with
          | none => exact hSkip
          | some icon =>
              refine ⟨some icon, rfl, ?_⟩
              rintro _ ⟨⟩
              exact ⟨e, List.mem_cons_self, hShown icon rfl⟩

/-- An entry that lies within the file can be read. -/
theorem loadDirEntry_inside {i : Nat} (h : 6 + i * 16 + 16 ≤ b.length) : ∃ e, loadDirEntry b i = some e := by
  obtain ⟨width, hWidth⟩ : ∃ width, load b (6 + i * 16) = some width := ⟨_, List.getElem?_eq_getElem (by omega)⟩
  obtain ⟨height, hHeight⟩ : ∃ height, load b (6 + i * 16 + 1) = some height :=
    ⟨_, List.getElem?_eq_getElem (by omega)⟩
  obtain ⟨bitCount, hBitCount⟩ := loadLe16_inside (show 6 + i * 16 + 6 + 2 ≤ b.length by omega)
  obtain ⟨bytesInRes, hBytesInRes⟩ := loadLe32_inside (show 6 + i * 16 + 8 + 4 ≤ b.length by omega)
  obtain ⟨imageOffset, hImageOffset⟩ := loadLe32_inside (show 6 + i * 16 + 12 + 4 ≤ b.length by omega)
  simp only [loadDirEntry, hWidth, hHeight, hBitCount, hBytesInRes, hImageOffset, Option.bind_eq_bind, Option.bind_some]
  exact ⟨_, rfl⟩

/-- A loop that collects what it reads. -/
theorem mapM_total {α β : Type} {f : α → Option β} {xs : List α} (h : ∀ x ∈ xs, ∃ y, f x = some y) :
    ∃ ys, xs.mapM f = some ys ∧ ∀ y ∈ ys, ∃ x ∈ xs, f x = some y := by
  induction xs with
  | nil => exact ⟨[], rfl, nofun⟩
  | cons x xs ih =>
      obtain ⟨y, hY⟩ := h x List.mem_cons_self
      obtain ⟨ys, hYs, hFrom⟩ := ih fun x hMem => h x (List.mem_cons_of_mem _ hMem)
      refine ⟨y :: ys, by rw [List.mapM_cons, hY, hYs]; rfl, ?_⟩
      intro z hZ
      rcases List.mem_cons.mp hZ with rfl | hZ
      · exact ⟨x, List.mem_cons_self, hY⟩
      · obtain ⟨x', hMem, hX'⟩ := hFrom z hZ
        exact ⟨x', List.mem_cons_of_mem x hMem, hX'⟩

/-- Whatever the file holds, nothing outside of its bytes is read and nothing
outside of the icon is written, and an icon shows the pixels of one of the
directory entries. -/
theorem loadIcoAsArgb32_safe (std : StdSort closer) (b : List UInt8) :
    ∃ result, loadIcoAsArgb32 std b = some result ∧ ∀ icon, result = some icon →
      ∃ count, loadLe16 b 4 = some count ∧ ∃ i < count.toNat, ∃ e, loadDirEntry b i = some e ∧
        ∃ headerSize, loadLe32 b e.imageOffset.toNat = some headerSize ∧
          Shows b (e.imageOffset.toNat + headerSize.toNat) icon := by
  unfold loadIcoAsArgb32
  by_cases hShort : b.length < 6
  · rw [if_pos hShort]
    exact ⟨none, rfl, nofun⟩
  rw [if_neg hShort]
  obtain ⟨reserved, hReserved⟩ := loadLe16_inside (show 0 + 2 ≤ b.length by omega)
  obtain ⟨kind, hKind⟩ := loadLe16_inside (show 2 + 2 ≤ b.length by omega)
  obtain ⟨count, hCount⟩ := loadLe16_inside (show 4 + 2 ≤ b.length by omega)
  simp only [hReserved, hKind, hCount, Option.bind_eq_bind, Option.bind_some]
  by_cases hZero : reserved ≠ 0
  · rw [if_pos hZero]
    exact ⟨none, rfl, nofun⟩
  rw [if_neg hZero]
  by_cases hIcon : kind ≠ 1
  · rw [if_pos hIcon]
    exact ⟨none, rfl, nofun⟩
  rw [if_neg hIcon]
  by_cases hDirectory : count = 0 ∨ 6 + count.toNat * 16 > b.length
  · rw [if_pos hDirectory]
    exact ⟨none, rfl, nofun⟩
  rw [if_neg hDirectory]
  have hInside : ∀ i ∈ List.range count.toNat, ∃ e, loadDirEntry b i = some e := by
    intro i hMem
    have hI := List.mem_range.mp hMem
    have hEnd := Nat.le_of_not_lt (not_or.mp hDirectory).2
    exact loadDirEntry_inside (by omega)
  obtain ⟨entries, hEntries, hFrom⟩ := mapM_total hInside
  obtain ⟨result, hResult, hShown⟩ := firstDecoded_spec b (std.sort entries)
  rw [hEntries, Option.bind_some, hResult]
  refine ⟨result, rfl, fun icon hIcon => ?_⟩
  obtain ⟨e, hMem, headerSize, hHeader, hShows⟩ := hShown icon hIcon
  obtain ⟨i, hI, hEntry⟩ := hFrom e ((std.perm entries).mem_iff.mp hMem)
  exact ⟨count, rfl, i, List.mem_range.mp hI, e, hEntry, headerSize, hHeader, hShows⟩

/-- One such sort. -/
def insertionSort : StdSort closer where
  sort xs := xs.insertionSort fun a b => (a.width - 32).natAbs ≤ (b.width - 32).natAbs
  perm xs := List.perm_insertionSort _ xs
  sorted xs := by
    have hTotal : Std.Total fun a b : DirEntry => (a.width - 32).natAbs ≤ (b.width - 32).natAbs :=
      ⟨fun a b => Nat.le_total _ _⟩
    have hTrans : IsTrans DirEntry fun a b => (a.width - 32).natAbs ≤ (b.width - 32).natAbs :=
      ⟨fun a b c hAB hBC => Nat.le_trans hAB hBC⟩
    refine (List.pairwise_insertionSort _ xs).imp fun {a b} h => ?_
    exact decide_eq_false (Nat.not_lt.mpr h)

/-- A file with one frame of one pixel. -/
example : (loadIcoAsArgb32 insertionSort
    ([0, 0, 1, 0, 1, 0] ++ [1, 1, 0, 0, 1, 0, 32, 0, 44, 0, 0, 0, 22, 0, 0, 0] ++
      [40, 0, 0, 0, 1, 0, 0, 0, 2, 0, 0, 0, 1, 0, 32, 0] ++ List.replicate 24 0 ++ [1, 2, 3, 4])).map
        (·.map (·.argb32Be)) = some (some [4, 3, 2, 1]) := by decide +kernel

end NoCapKVM.App
