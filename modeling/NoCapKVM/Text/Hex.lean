import Mathlib.Data.List.Induction
import Mathlib.Tactic.IntervalCases
import NoCapKVM.Text.IStream

/-! Hexadecimal numbers in a text stream, as they are read after `std::hex`. -/
namespace Text

/-- The value of a hexadecimal digit, in either letter case. -/
def hexDigit (c : Char) : Option Nat :=
  if '0' ≤ c ∧ c ≤ '9' then some (c.toNat - 48)
  else if 'a' ≤ c ∧ c ≤ 'f' then some (c.toNat - 87)
  else if 'A' ≤ c ∧ c ≤ 'F' then some (c.toNat - 55)
  else none

def isHexDigit (c : Char) : Bool := (hexDigit c).isSome

def ofHexDigits (digits : List Char) : Nat :=
  digits.foldl (fun n c => 16 * n + (hexDigit c).getD 0) 0

/-- A zero and an `x` before the digits are passed over. -/
def takePrefix : List Char → List Char
  | '0' :: 'x' :: rest => rest
  | '0' :: 'X' :: rest => rest
  | rest => rest

namespace IStream

variable {α : Type}

def hexNumber (convert : Bool → Nat → Option α) (s : IStream) : Option α × IStream :=
  if s.fail then (none, s)
  else
    let (negative, rest) := takeSign s.skipSpace
    let digits := (takePrefix rest).takeWhile isHexDigit
    let value := if digits = [] then none else convert negative (ofHexDigits digits)
    (value, ⟨(takePrefix rest).dropWhile isHexDigit, value.isNone⟩)

/-- `uint64_t` -/
def hexUInt64 : IStream → Option UInt64 × IStream :=
  hexNumber fun negative n =>
    if n < 2 ^ 64 then some (if negative then -UInt64.ofNat n else UInt64.ofNat n) else none

/-- `unsigned int` -/
def hexUInt32 : IStream → Option UInt32 × IStream :=
  hexNumber fun negative n =>
    if n < 2 ^ 32 then some (if negative then -UInt32.ofNat n else UInt32.ofNat n) else none

end IStream

/-- The character of a digit is read as that digit. -/
theorem hexDigit_digitChar : ∀ {n : Nat}, n < 16 → hexDigit n.digitChar = some n := by
  decide

/-- A digit is no space. -/
theorem isSpace_of_isHexDigit {c : Char} (h : isHexDigit c) : isSpace c = false := by
  by_contra hSpace
  simp only [isSpace, Bool.not_eq_false, List.contains_eq_mem, List.mem_cons, List.not_mem_nil, or_false,
    decide_eq_true_eq] at hSpace
  rcases hSpace with rfl | rfl | rfl | rfl | rfl | rfl <;> exact absurd h (by decide)

theorem isHexDigit_of_isSpace {c : Char} (h : isSpace c) : isHexDigit c = false := by
  by_contra hDigit
  rw [isSpace_of_isHexDigit (by simpa using hDigit)] at h
  cases h

/-- The digit that is written for the value differs at most in letter case. -/
theorem digitChar_of_hexDigit {c : Char} {n : Nat} (h : hexDigit c = some n) : n < 16 ∧ n.digitChar = c.toLower := by
  unfold hexDigit at h
  simp only [Char.le_def, UInt32.le_iff_toNat_le] at h
  rw [← Char.ofNat_toNat c]
  split at h
  · rename_i hRange
    cases h
    obtain ⟨hLow, hHigh⟩ : 48 ≤ c.toNat ∧ c.toNat ≤ 57 := hRange
    interval_cases c.toNat <;> decide
  · split at h
    · rename_i hRange
      cases h
      obtain ⟨hLow, hHigh⟩ : 97 ≤ c.toNat ∧ c.toNat ≤ 102 := hRange
      interval_cases c.toNat <;> decide
    · split at h
      · rename_i hRange
        cases h
        obtain ⟨hLow, hHigh⟩ : 65 ≤ c.toNat ∧ c.toNat ≤ 70 := hRange
        interval_cases c.toNat <;> decide
      · cases h

/-- Each further digit multiplies the number by 16 and adds to it. -/
theorem ofHexDigits_append_singleton (digits : List Char) (c : Char) :
    ofHexDigits (digits ++ [c]) = 16 * ofHexDigits digits + (hexDigit c).getD 0 := by
  simp [ofHexDigits]

/-- So a number stays below the power of 16 that its digits have room for. -/
theorem ofHexDigits_lt (digits : List Char) : ofHexDigits digits < 16 ^ digits.length := by
  induction digits using List.reverseRecOn with
  | nil => decide
  | append_singleton digits c ih =>
    have hDigit : (hexDigit c).getD 0 < 16 := by
      cases hValue : hexDigit c with
      | none => decide
      | some n => exact (digitChar_of_hexDigit hValue).1
    rw [ofHexDigits_append_singleton, List.length_append, List.length_singleton, Nat.pow_succ]
    omega

theorem isHexDigit_digitChar {n : Nat} (h : n < 16) : isHexDigit n.digitChar := by
  rw [isHexDigit, hexDigit_digitChar h]
  rfl

/-- The digits of a number are read as the number. -/
theorem ofHexDigits_toDigits (n : Nat) : ofHexDigits (Nat.toDigits 16 n) = n := by
  induction n using Nat.strong_induction_on with
  | h n ih =>
    by_cases hSmall : n < 16
    · rw [Nat.toDigits_of_lt_base hSmall]
      simp [ofHexDigits, hexDigit_digitChar hSmall]
    · have hDigit : n % 16 < 16 := Nat.mod_lt n (by decide)
      rw [Nat.toDigits_of_base_le (by decide) (Nat.le_of_not_lt hSmall), ofHexDigits_append_singleton,
        ih (n / 16) (Nat.div_lt_self (by omega) (by decide)), hexDigit_digitChar hDigit]
      exact Nat.div_add_mod n 16

/-- They are digits, all of them. -/
theorem isHexDigit_toDigits {n : Nat} : ∀ x ∈ Nat.toDigits 16 n, isHexDigit x := by
  induction n using Nat.strong_induction_on with
  | h n ih =>
    intro x hx
    by_cases hSmall : n < 16
    · rw [Nat.toDigits_of_lt_base hSmall] at hx
      obtain rfl := List.mem_singleton.mp hx
      exact isHexDigit_digitChar hSmall
    · rw [Nat.toDigits_of_base_le (by decide) (Nat.le_of_not_lt hSmall)] at hx
      rcases List.mem_append.mp hx with hx | hx
      · exact ih (n / 16) (Nat.div_lt_self (by omega) (by decide)) x hx
      · obtain rfl := List.mem_singleton.mp hx
        exact isHexDigit_digitChar (Nat.mod_lt n (by decide))

/-- Where no `x` stands second, no prefix is taken. -/
theorem takePrefix_of_second {cs : List Char} (h : ∀ c ∈ cs.tail.head?, c ≠ 'x' ∧ c ≠ 'X') : takePrefix cs = cs := by
  unfold takePrefix
  split
  · exact absurd rfl (h 'x' rfl).1
  · exact absurd rfl (h 'X' rfl).2
  · rfl

/-- A number that begins with a digit has no sign. -/
theorem takeSign_of_isHexDigit {c : Char} {rest : List Char} (h : isHexDigit c) :
    IStream.takeSign (c :: rest) = (false, c :: rest) := by
  unfold IStream.takeSign
  split
  · rename_i heq
    cases heq
    exact absurd h (by decide)
  · rename_i heq
    cases heq
    exact absurd h (by decide)
  · rfl

theorem ne_x_of_isHexDigit {c : Char} (h : isHexDigit c) : c ≠ 'x' ∧ c ≠ 'X' := by
  constructor <;> rintro rfl <;> exact absurd h (by decide)

namespace IStream

variable {α : Type} {gap rest : List Char}

/-- A number after space, and before space or the end, comes back if the
type has it. -/
theorem hexNumber_before {convert : Bool → Nat → Option α} {n : Nat} {value : α}
    (hGap : ∀ x ∈ gap, isSpace x) (hEnd : ∀ c ∈ rest.head?, isSpace c) (hValue : convert false n = some value) :
    hexNumber convert ⟨gap ++ (Nat.toDigits 16 n ++ rest), false⟩ = (some value, ⟨rest, false⟩) := by
  obtain ⟨a, as, hCons⟩ := List.exists_cons_of_ne_nil (Nat.toDigits_ne_nil (n := n) (b := 16))
  have hDigits : ∀ x ∈ a :: as, isHexDigit x := hCons ▸ isHexDigit_toDigits (n := n)
  have hFirst : isHexDigit a := hDigits a List.mem_cons_self
  have hRest : ∀ c ∈ rest.head?, isHexDigit c = false := fun c hc => isHexDigit_of_isSpace (hEnd c hc)
  have hSkip : skipSpace ⟨gap ++ (Nat.toDigits 16 n ++ rest), false⟩ = a :: (as ++ rest) := by
    rw [hCons]
    exact skipSpace_before hGap (by simpa using isSpace_of_isHexDigit hFirst)
  -- The second character is one more digit or what ends the number, and so no `x`.
  have hPrefix : takePrefix (a :: (as ++ rest)) = a :: (as ++ rest) := by
    apply takePrefix_of_second
    intro c hc
    cases as with
    | cons b bs =>
      obtain rfl : b = c := by simpa using hc
      exact ne_x_of_isHexDigit (hDigits b (by simp))
    | nil =>
      have hSpace : isSpace c := hEnd c (by simpa using hc)
      constructor <;> rintro rfl <;> exact absurd hSpace (by decide)
  have hTake : (a :: (as ++ rest)).takeWhile isHexDigit = a :: as := takeWhile_append_before hDigits hRest
  have hDrop : (a :: (as ++ rest)).dropWhile isHexDigit = rest := dropWhile_append_before hDigits hRest
  simp only [hexNumber, hSkip, takeSign_of_isHexDigit hFirst, hPrefix, hTake, hDrop]
  simp [← hCons, ofHexDigits_toDigits, hValue]

/-- A number that was written in digits is read back up to the
space behind it. -/
theorem hexUInt64_before (n : UInt64) (hGap : ∀ x ∈ gap, isSpace x) (hEnd : ∀ c ∈ rest.head?, isSpace c) :
    hexUInt64 ⟨gap ++ (Nat.toDigits 16 n.toNat ++ rest), false⟩ = (some n, ⟨rest, false⟩) := by
  apply hexNumber_before hGap hEnd
  rw [if_pos n.toNat_lt, if_neg (by decide), UInt64.ofNat_toNat]

end IStream
end Text
