import Mathlib.Data.List.Basic

/-! `jpeg_codec.cpp` and the limits that `clipboard.cpp` calls it with. -/
namespace NoCapKVM.Clipboard

def kJpegQuality : Nat := 85
def kMaxJpegBytes : Nat := 6 * 1024 * 1024

/-- `write` is stb_image_write on one image: what it makes of a quality, or
`none` if it fails. An empty result means that there is no image. -/
def encodeJpeg (write : Nat → Option (List UInt8)) (quality maxBytes : Nat) : List UInt8 :=
  if quality < 20 then []
  else match write quality with
    | none => []
    | some out => if out.length ≤ maxBytes then out else encodeJpeg write (quality - 15) maxBytes
termination_by quality

/-- An image of any size fits the limit once it is encoded. -/
theorem encodeJpeg_length (write : Nat → Option (List UInt8)) (quality maxBytes : Nat) :
    (encodeJpeg write quality maxBytes).length ≤ maxBytes := by
  induction quality using Nat.strongRecOn with
  | ind quality ih =>
      rw [encodeJpeg]
      split
      · exact Nat.zero_le _
      · cases write quality with
        | none => exact Nat.zero_le _
        | some out =>
            simp only
            split
            · assumption
            · exact ih (quality - 15) (by omega)

end NoCapKVM.Clipboard
