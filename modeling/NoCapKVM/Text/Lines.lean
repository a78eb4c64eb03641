import NoCapKVM.Text.IStream

/-! A text stream line by line, and a text that is written. -/
namespace Text

namespace IStream

/-- `std::getline`: the line without its end. The last line may have none. -/
def getline (s : IStream) : Option (List Char) × IStream :=
  if s.fail then (none, s)
  else if s.rest = [] then (none, ⟨[], true⟩)
  else (some (s.rest.takeWhile (· ≠ '\n')), ⟨(s.rest.dropWhile (· ≠ '\n')).drop 1, false⟩)

theorem length_getline_lt {s : IStream} {line : List Char} (h : s.getline.1 = some line) :
    s.getline.2.rest.length < s.rest.length := by
  unfold getline at h ⊢
  split at h
  · cases h
  · rename_i hGood
    split at h
    · cases h
    · rename_i hRest
      rw [if_neg hGood, if_neg hRest]
      have hLine := List.length_dropWhile_le (· ≠ '\n') s.rest
      have hPos := List.length_pos_iff.mpr hRest
      simp only [List.length_drop]
      omega

/-- `while (std::getline(in, line))` -/
def getlines (s : IStream) : List (List Char) :=
  match _h : s.getline with
  | (some line, s') => line :: getlines s'
  | (none, _) => []
termination_by s.rest.length
decreasing_by
  have hLine : s.getline.2.rest.length < s.rest.length := length_getline_lt (by rw [_h])
  rwa [_h] at hLine

theorem getline_append {line rest : List Char} (hLine : '\n' ∉ line) :
    getline ⟨line ++ '\n' :: rest, false⟩ = (some line, ⟨rest, false⟩) := by
  have hAll := ne_newline_of_notMem hLine
  have hHead : ∀ c ∈ ('\n' :: rest).head?, decide (c ≠ '\n') = false := by simp
  simp only [getline, takeWhile_append_before hAll hHead, dropWhile_append_before hAll hHead]
  simp

theorem getlines_nil : getlines ⟨[], false⟩ = [] := by
  rw [getlines]
  rfl

theorem getlines_append {line rest : List Char} (hLine : '\n' ∉ line) :
    getlines ⟨line ++ '\n' :: rest, false⟩ = line :: getlines ⟨rest, false⟩ := by
  rw [getlines]
  split
  · rename_i heq
    obtain ⟨hl, rfl⟩ := Prod.mk.inj ((getline_append hLine).symm.trans heq)
    rw [Option.some.inj hl]
  · rename_i heq
    cases (getline_append hLine).symm.trans heq

end IStream

/-- A text that is written. Its base stays set for the numbers
that come later. -/
structure OStream where
  text : List Char := []
  base : Nat := 10

namespace OStream

def hex (s : OStream) : OStream := { s with base := 16 }

def dec (s : OStream) : OStream := { s with base := 10 }

def put (s : OStream) (text : List Char) : OStream := { s with text := s.text ++ text }

/-- `uint64_t` -/
def uint64 (s : OStream) (n : UInt64) : OStream := s.put (Nat.toDigits s.base n.toNat)

/-- `int32_t`: only a decimal number has a sign. -/
def int32 (s : OStream) (n : Int32) : OStream :=
  s.put (if s.base = 10 then IStream.signedDigits (n.toInt < 0) n.toInt.natAbs
    else Nat.toDigits s.base n.toUInt32.toNat)

end OStream
end Text
