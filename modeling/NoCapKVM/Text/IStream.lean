import Mathlib.Data.List.TakeWhile
import Mathlib.Order.Basic

/-! Formatted reads of a text stream. A read passes over leading space; one that fails sets
the stream's fail flag, and a failed stream gives nothing more. -/
namespace Text

def isSpace (c : Char) : Bool := [' ', '\t', '\n', '\x0b', '\x0c', '\r'].contains c

structure IStream where
  rest : List Char
  fail : Bool := false

namespace IStream

variable {α : Type}

def skipSpace (s : IStream) : List Char := s.rest.dropWhile isSpace

/-- Up to the next space. -/
def word (s : IStream) : Option (List Char) × IStream :=
  if s.fail then (none, s)
  else if s.skipSpace = [] then (none, ⟨[], true⟩)
  else (some (s.skipSpace.takeWhile (!isSpace ·)), ⟨s.skipSpace.dropWhile (!isSpace ·), false⟩)

/-- An optional sign, and whether it was a minus. -/
def takeSign : List Char → Bool × List Char
  | '-' :: rest => (true, rest)
  | '+' :: rest => (false, rest)
  | rest => (false, rest)

/-- A decimal number. The type that is read says which values it has. -/
def number (convert : Bool → Nat → Option α) (s : IStream) : Option α × IStream :=
  if s.fail then (none, s)
  else
    let (negative, rest) := takeSign s.skipSpace
    let digits := rest.takeWhile Char.isDigit
    let value := if digits = [] then none else convert negative (Nat.ofDigitChars 10 digits 0)
    (value, ⟨rest.dropWhile Char.isDigit, value.isNone⟩)

/-- `int` -/
def int : IStream → Option Int × IStream :=
  number fun negative n =>
    let value : Int := if negative then -n else n
    if -2147483648 ≤ value ∧ value ≤ 2147483647 then some value else none

/-- `uint32_t`, `unsigned int`: the negative of a number is taken
in the type. -/
def uint32 : IStream → Option UInt32 × IStream :=
  number fun negative n =>
    if n ≤ 4294967295 then some (if negative then -UInt32.ofNat n else UInt32.ofNat n) else none

/-- The rest of the line, with its end. -/
def skipLine (s : IStream) : IStream :=
  if s.fail then s
  else if s.rest = [] then ⟨[], true⟩
  else ⟨(s.rest.dropWhile (· ≠ '\n')).drop 1, false⟩

/-- Passing over space leaves no more than was there. -/
theorem length_skipSpace_le (s : IStream) : s.skipSpace.length ≤ s.rest.length :=
  List.length_dropWhile_le isSpace s.rest

/-- Nor does taking a sign. -/
theorem length_takeSign_le (cs : List Char) : (takeSign cs).2.length ≤ cs.length := by
  unfold takeSign
  split <;> simp

/-- So a number leaves no more than was there, whatever is made
of its digits. -/
theorem length_number_le (convert : Bool → Nat → Option α) (s : IStream) :
    (number convert s).2.rest.length ≤ s.rest.length := by
  unfold number
  split
  · exact le_refl _
  · calc
      _ ≤ (takeSign s.skipSpace).2.length := List.length_dropWhile_le _ _
      _ ≤ s.skipSpace.length := length_takeSign_le _
      _ ≤ s.rest.length := s.length_skipSpace_le

theorem length_int_le (s : IStream) : s.int.2.rest.length ≤ s.rest.length := length_number_le _ s

theorem length_uint32_le (s : IStream) : s.uint32.2.rest.length ≤ s.rest.length := length_number_le _ s

/-- And so does the end of the line, which is why a loader over lines
comes to an end. -/
theorem length_skipLine_le (s : IStream) : s.skipLine.rest.length ≤ s.rest.length := by
  unfold skipLine
  split
  · exact le_refl _
  · split
    · exact Nat.zero_le _
    · have hLine := List.length_dropWhile_le (· ≠ '\n') s.rest
      simp only [List.length_drop]
      omega

/-- After space comes something else. -/
theorem isSpace_head_skipSpace {s : IStream} {c : Char} {cs : List Char} (h : s.skipSpace = c :: cs) :
    isSpace c = false := by
  have hHead := List.head?_dropWhile_not isSpace s.rest
  rw [show s.rest.dropWhile isSpace = c :: cs from h] at hHead
  simpa using hHead

/-- A word that was read has made the stream shorter. -/
theorem length_word_lt {s : IStream} {w : List Char} (h : s.word.1 = some w) :
    s.word.2.rest.length < s.rest.length := by
  unfold word at h ⊢
  split at h
  · cases h
  · rename_i hGood
    split at h
    · cases h
    · rename_i hRest
      rw [if_neg hGood, if_neg hRest]
      obtain ⟨c, cs, hCons⟩ := List.exists_cons_of_ne_nil hRest
      calc
        _ = (cs.dropWhile (!isSpace ·)).length := by
          simp only [hCons]
          rw [List.dropWhile_cons_of_pos (by simp [isSpace_head_skipSpace hCons])]
        _ ≤ cs.length := List.length_dropWhile_le _ _
        _ < s.skipSpace.length := by simp [hCons]
        _ ≤ s.rest.length := s.length_skipSpace_le

/-- What stands before `rest` ends there. -/
theorem dropWhile_append_before {p : Char → Bool} {xs rest : List Char} (hAll : ∀ x ∈ xs, p x)
    (hHead : ∀ c ∈ rest.head?, p c = false) : (xs ++ rest).dropWhile p = rest := by
  rw [List.dropWhile_append_of_pos hAll]
  cases rest with
  | nil => rfl
  | cons c cs => rw [List.dropWhile_cons_of_neg (by simp [hHead c rfl])]

/-- What is taken while a condition holds ends where a character fails it. -/
theorem takeWhile_append_before {p : Char → Bool} {xs rest : List Char} (hAll : ∀ x ∈ xs, p x)
    (hHead : ∀ c ∈ rest.head?, p c = false) : (xs ++ rest).takeWhile p = xs := by
  rw [List.takeWhile_append_of_pos hAll]
  cases rest with
  | nil => exact List.append_nil xs
  | cons c cs => rw [List.takeWhile_cons_of_neg (by simp [hHead c rfl]), List.append_nil]

theorem ne_newline_of_notMem {line : List Char} (h : '\n' ∉ line) : ∀ x ∈ line, decide (x ≠ '\n') = true := by
  intro x hx
  refine decide_eq_true ?_
  rintro rfl
  exact h hx

section Written

variable {gap : List Char} {c : Char} {rest : List Char}

/-- The space before a word is passed over, and nothing of the word. -/
theorem skipSpace_before (hGap : ∀ x ∈ gap, isSpace x) (hHead : ∀ c ∈ rest.head?, isSpace c = false) :
    skipSpace ⟨gap ++ rest, false⟩ = rest :=
  dropWhile_append_before hGap hHead

/-- A word after space, and before space or the end. -/
theorem word_before {w : List Char} (hGap : ∀ x ∈ gap, isSpace x) (hWord : ∀ x ∈ w, !isSpace x) (hNe : w ≠ [])
    (hEnd : ∀ c ∈ rest.head?, isSpace c) : word ⟨gap ++ (w ++ rest), false⟩ = (some w, ⟨rest, false⟩) := by
  have hSkip : skipSpace ⟨gap ++ (w ++ rest), false⟩ = w ++ rest := by
    obtain ⟨a, as, rfl⟩ := List.exists_cons_of_ne_nil hNe
    have hFirst : isSpace a = false := Bool.not_eq_true' _ ▸ hWord a List.mem_cons_self
    exact skipSpace_before hGap (by simpa using hFirst)
  have hHead : ∀ c ∈ rest.head?, (!isSpace c) = false := fun c hc => by simp [hEnd c hc]
  simp only [word, hSkip, takeWhile_append_before hWord hHead, dropWhile_append_before hWord hHead]
  simp [hNe]

/-- A word between spaces. -/
theorem word_written {w : List Char} (hGap : ∀ x ∈ gap, isSpace x) (hWord : ∀ x ∈ w, !isSpace x) (hNe : w ≠ [])
    (hEnd : isSpace c) :
    word ⟨gap ++ (w ++ c :: rest), false⟩ = (some w, ⟨c :: rest, false⟩) :=
  word_before hGap hWord hNe (by simpa using hEnd)

/-- Behind the last word a read fails. -/
theorem word_end (hGap : ∀ x ∈ gap, isSpace x) : word ⟨gap, false⟩ = (none, ⟨[], true⟩) := by
  have hSkip : skipSpace ⟨gap, false⟩ = [] := List.dropWhile_eq_nil_iff.mpr hGap
  simp [word, hSkip]

/-- The digits of a number are digits. -/
theorem isDigit_toDigits {n : Nat} : ∀ x ∈ Nat.toDigits 10 n, x.isDigit :=
  fun _ => Nat.isDigit_of_mem_toDigits (by decide) (by decide)

/-- A digit is no space. -/
theorem isSpace_of_isDigit (h : c.isDigit) : isSpace c = false := by
  by_contra hSpace
  simp only [isSpace, Bool.not_eq_false, List.contains_eq_mem, List.mem_cons, List.not_mem_nil, or_false,
    decide_eq_true_eq] at hSpace
  rcases hSpace with rfl | rfl | rfl | rfl | rfl | rfl <;> exact absurd h (by decide)

/-- A number that begins with a digit has no sign. -/
theorem takeSign_of_isDigit (h : c.isDigit) : takeSign (c :: rest) = (false, c :: rest) := by
  unfold takeSign
  split
  · rename_i heq
    cases heq
    exact absurd h (by decide)
  · rename_i heq
    cases heq
    exact absurd h (by decide)
  · rfl

/-- The sign and the digits of a number. -/
def signedDigits (negative : Bool) (n : Nat) : List Char :=
  (if negative then ['-'] else []) ++ Nat.toDigits 10 n

/-- A number stays on its line. -/
theorem newline_notMem_signedDigits (negative : Bool) (n : Nat) : '\n' ∉ signedDigits negative n := by
  intro h
  rcases List.mem_append.mp h with hSign | hDigit
  · cases negative <;> simp at hSign
  · exact absurd (isDigit_toDigits _ hDigit) (by decide)

/-- The sign of a number is read back. -/
theorem takeSign_signedDigits (negative : Bool) (n : Nat) :
    takeSign (signedDigits negative n ++ rest) = (negative, Nat.toDigits 10 n ++ rest) := by
  cases negative with
  | true => rfl
  | false =>
    obtain ⟨a, as, hCons⟩ := List.exists_cons_of_ne_nil (Nat.toDigits_ne_nil (n := n) (b := 10))
    have hFirst : a.isDigit := isDigit_toDigits (n := n) a (by simp [hCons])
    simp only [signedDigits, Bool.false_eq_true, if_false, List.nil_append, hCons, List.cons_append]
    exact takeSign_of_isDigit hFirst

/-- A number begins with no space. -/
theorem isSpace_head_signedDigits {negative : Bool} {n : Nat} (h : c ∈ (signedDigits negative n ++ rest).head?) :
    isSpace c = false := by
  cases negative with
  | true =>
    obtain rfl : '-' = c := by simpa [signedDigits] using h
    decide
  | false =>
    obtain ⟨a, as, hCons⟩ := List.exists_cons_of_ne_nil (Nat.toDigits_ne_nil (n := n) (b := 10))
    obtain rfl : a = c := by simpa [signedDigits, hCons] using h
    exact isSpace_of_isDigit (isDigit_toDigits (n := n) a (by simp [hCons]))

/-- A number after space comes back if the type has it. -/
theorem number_before {convert : Bool → Nat → Option α} {negative : Bool} {n : Nat} {value : α}
    (hGap : ∀ x ∈ gap, isSpace x) (hEnd : ∀ c ∈ rest.head?, c.isDigit = false)
    (hValue : convert negative n = some value) :
    number convert ⟨gap ++ (signedDigits negative n ++ rest), false⟩ = (some value, ⟨rest, false⟩) := by
  have hSkip : skipSpace ⟨gap ++ (signedDigits negative n ++ rest), false⟩ = signedDigits negative n ++ rest :=
    skipSpace_before hGap fun c hc => isSpace_head_signedDigits hc
  simp only [number, hSkip, takeSign_signedDigits, takeWhile_append_before isDigit_toDigits hEnd,
    dropWhile_append_before isDigit_toDigits hEnd]
  simp [Nat.toDigits_ne_nil, Nat.ofDigitChars_ten_toDigits, hValue]

/-- A number between spaces comes back if the type has it. -/
theorem number_written {convert : Bool → Nat → Option α} {n : Nat} {value : α} (hEnd : isSpace c)
    (hValue : convert false n = some value) :
    number convert ⟨' ' :: (Nat.toDigits 10 n ++ c :: rest), false⟩ = (some value, ⟨c :: rest, false⟩) := by
  have hGap : ∀ x ∈ [' '], isSpace x := by simp [isSpace]
  have hDigit : c.isDigit = false := by
    by_contra h
    simp [isSpace_of_isDigit (by simpa using h)] at hEnd
  change number convert ⟨[' '] ++ (signedDigits false n ++ c :: rest), false⟩ = _
  exact number_before hGap (by simpa using hDigit) hValue

/-- A negative number has its sign. -/
theorem int_before {value : Int} (hGap : ∀ x ∈ gap, isSpace x) (hEnd : ∀ c ∈ rest.head?, c.isDigit = false)
    (hLow : -2147483648 ≤ value) (hHigh : value ≤ 2147483647) :
    int ⟨gap ++ (signedDigits (value < 0) value.natAbs ++ rest), false⟩ = (some value, ⟨rest, false⟩) := by
  have hValue : (if decide (value < 0) then -(value.natAbs : Int) else value.natAbs) = value := by
    by_cases hNegative : value < 0
    · rw [if_pos (decide_eq_true hNegative)]
      omega
    · rw [if_neg (by simpa using hNegative)]
      omega
  apply number_before hGap hEnd
  simp only [hValue]
  rw [if_pos ⟨hLow, hHigh⟩]

/-- A number that was written is read back as an `int`, if it fits one. -/
theorem int_written {n : Nat} (hEnd : isSpace c) (hRange : n ≤ 2147483647) :
    int ⟨' ' :: (Nat.toDigits 10 n ++ c :: rest), false⟩ = (some (n : Int), ⟨c :: rest, false⟩) := by
  apply number_written hEnd
  simp only [Bool.false_eq_true, if_false]
  rw [if_pos (by omega)]

/-- Every `uint32_t` that was written is read back. -/
theorem uint32_written (n : UInt32) (hEnd : isSpace c) :
    uint32 ⟨' ' :: (Nat.toDigits 10 n.toNat ++ c :: rest), false⟩ = (some n, ⟨c :: rest, false⟩) := by
  apply number_written hEnd
  rw [if_pos (Nat.le_of_lt_succ n.toNat_lt), if_neg (by decide), UInt32.ofNat_toNat]

end Written
end IStream
end Text
