import NoCapKVM.Text.IStream

/-! Numbers in one line of a text. Where no number starts the next line, what is read inside a
line depends on this line alone. -/
namespace Text

open IStream

variable {α : Type}

/-- A number at the start of a text: its sign, its digits, and what comes
after it. -/
def leadingNumber (text : List Char) : Option (Bool × Nat × List Char) :=
  let (negative, rest) := takeSign (text.dropWhile isSpace)
  let digits := rest.takeWhile Char.isDigit
  if digits = [] then none
  else some (negative, Nat.ofDigitChars 10 digits 0, rest.dropWhile Char.isDigit)

/-- What is left of a line, or none after a failure. -/
abbrev LineState := Option (List Char)

/-- A number of a type is read from the line. -/
def scan (convert : Bool → Nat → Option α) : LineState → Option α × LineState
  | none => (none, none)
  | some text =>
      match leadingNumber text with
      | none => (none, none)
      | some (negative, n, tail) =>
          match convert negative n with
          | some value => (some value, some tail)
          | none => (none, none)

/-- The values that `int` has. -/
def intValue (negative : Bool) (n : Nat) : Option Int :=
  let value : Int := if negative then -n else n
  if -2147483648 ≤ value ∧ value ≤ 2147483647 then some value else none

/-- The values that `uint32_t` has. -/
def uint32Value (negative : Bool) (n : Nat) : Option UInt32 :=
  if n ≤ 4294967295 then some (if negative then -UInt32.ofNat n else UInt32.ofNat n) else none

theorem int_eq : IStream.int = number intValue := rfl

theorem uint32_eq : IStream.uint32 = number uint32Value := rfl

def firstWord (text : List Char) : List Char := (text.dropWhile isSpace).takeWhile (!isSpace ·)

def afterWord (text : List Char) : List Char := (text.dropWhile isSpace).dropWhile (!isSpace ·)

/-- The next line starts no number. -/
def StartsNoNumber (rest : List Char) : Prop :=
  ∀ c ∈ rest.head?, isSpace c = false ∧ c.isDigit = false ∧ c ≠ '-' ∧ c ≠ '+'

/-- The stream stands in a line that `rest` comes after, or it has failed. -/
inductive Within (rest : List Char) : LineState → IStream → Prop where
  | reading {text : List Char} (hLine : '\n' ∉ text) : Within rest (some text) ⟨text ++ '\n' :: rest, false⟩
  | failed (left : List Char) : Within rest none ⟨left, true⟩

variable {rest text more : List Char}

/-- What is taken from a text does not reach past a character that fails the
condition. -/
theorem takeWhile_append_stop {p : Char → Bool} (h : ∀ c ∈ more.head?, p c = false) (text : List Char) :
    (text ++ more).takeWhile p = text.takeWhile p := by
  induction text with
  | nil => exact @takeWhile_append_before p [] more (fun _ hx => absurd hx List.not_mem_nil) h
  | cons c text ih => simp only [List.cons_append, List.takeWhile_cons, ih]

/-- What is left over then has the rest behind it. -/
theorem dropWhile_append_stop {p : Char → Bool} (h : ∀ c ∈ more.head?, p c = false) (text : List Char) :
    (text ++ more).dropWhile p = text.dropWhile p ++ more := by
  induction text with
  | nil => exact dropWhile_append_before (fun _ hx => absurd hx List.not_mem_nil) h
  | cons c text ih =>
    simp only [List.cons_append, List.dropWhile_cons, ih]
    split <;> rfl

/-- Space goes on over the end of a line. -/
theorem dropWhile_isSpace_line (h : ∀ c ∈ rest.head?, isSpace c = false) :
    (text ++ '\n' :: rest).dropWhile isSpace =
      if text.dropWhile isSpace = [] then rest else text.dropWhile isSpace ++ '\n' :: rest := by
  have hNewline : ('\n' :: rest).dropWhile isSpace = rest := by
    rw [List.dropWhile_cons_of_pos (by decide)]
    exact dropWhile_append_before (fun _ hx => absurd hx List.not_mem_nil) h
  rw [List.dropWhile_append, hNewline]
  simp only [List.isEmpty_iff]

/-- The sign of a text that is not empty is found in the text itself. -/
theorem takeSign_append {cs : List Char} (h : cs ≠ []) (more : List Char) :
    takeSign (cs ++ more) = ((takeSign cs).1, (takeSign cs).2 ++ more) := by
  obtain ⟨c, cs, rfl⟩ := List.exists_cons_of_ne_nil h
  by_cases hMinus : c = '-'
  · subst hMinus
    rfl
  · by_cases hPlus : c = '+'
    · subst hPlus
      rfl
    · simp [takeSign, hMinus, hPlus]

/-- Text that starts no number has no sign. -/
theorem StartsNoNumber.takeSign_eq (h : StartsNoNumber rest) : takeSign rest = (false, rest) := by
  cases rest with
  | nil => rfl
  | cons c cs =>
    obtain ⟨-, -, hMinus, hPlus⟩ := h c rfl
    simp [takeSign, hMinus, hPlus]

/-- It has no digit at its start either. -/
theorem StartsNoNumber.takeWhile_eq (h : StartsNoNumber rest) : rest.takeWhile Char.isDigit = [] := by
  cases rest with
  | nil => rfl
  | cons c cs => exact List.takeWhile_cons_of_neg (by simp [(h c rfl).2.1])

/-- A number ends before what is no digit. -/
theorem leadingNumber_append {negative : Bool} {n : Nat} {tail : List Char}
    (h : leadingNumber text = some (negative, n, tail)) (hMore : ∀ c ∈ more.head?, c.isDigit = false) :
    leadingNumber (text ++ more) = some (negative, n, tail ++ more) := by
  unfold leadingNumber at h ⊢
  dsimp only at h
  split at h
  · cases h
  · rename_i hDigits
    cases h
    have hNe : text.dropWhile isSpace ≠ [] := by
      intro hNil
      rw [hNil] at hDigits
      exact hDigits rfl
    have hSkip : (text ++ more).dropWhile isSpace = text.dropWhile isSpace ++ more := by
      rw [List.dropWhile_append, if_neg (by simpa using hNe)]
    simp only [hSkip, takeSign_append hNe, takeWhile_append_stop hMore, dropWhile_append_stop hMore]
    rw [if_neg hDigits]

/-- A line without a number does not find one in the next line. -/
theorem leadingNumber_line (h : StartsNoNumber rest) (hNone : leadingNumber text = none) :
    leadingNumber (text ++ '\n' :: rest) = none := by
  have hSkip := @dropWhile_isSpace_line rest text fun c hc => (h c hc).1
  have hStop : ∀ c ∈ ('\n' :: rest).head?, c.isDigit = false := by simp
  unfold leadingNumber at hNone ⊢
  by_cases hEmpty : text.dropWhile isSpace = []
  · rw [if_pos hEmpty] at hSkip
    simp only [hSkip, h.takeSign_eq, h.takeWhile_eq]
    rfl
  · rw [if_neg hEmpty] at hSkip
    simp only [hSkip, takeSign_append hEmpty, takeWhile_append_stop hStop]
    dsimp only at hNone
    split at hNone
    · rename_i hDigits
      rw [if_pos hDigits]
    · cases hNone

/-- Taking a sign leaves an end of the text. -/
theorem suffix_takeSign (cs : List Char) : (takeSign cs).2 <:+ cs := by
  unfold takeSign
  split
  · exact List.suffix_cons _ _
  · exact List.suffix_cons _ _
  · exact List.suffix_refl _

/-- So does taking a number. -/
theorem suffix_leadingNumber {negative : Bool} {n : Nat} {tail : List Char}
    (h : leadingNumber text = some (negative, n, tail)) : tail <:+ text := by
  unfold leadingNumber at h
  dsimp only at h
  split at h
  · cases h
  · cases h
    exact ((List.dropWhile_suffix _).trans (suffix_takeSign _)).trans (List.dropWhile_suffix _)

/-- A number that is there is read, and the stream fails only if its type has
no such value. -/
theorem number_of_leadingNumber {negative : Bool} {n : Nat} {tail : List Char}
    (h : leadingNumber text = some (negative, n, tail)) (convert : Bool → Nat → Option α) :
    number convert ⟨text, false⟩ = (convert negative n, ⟨tail, (convert negative n).isNone⟩) := by
  unfold leadingNumber at h
  dsimp only at h
  split at h
  · cases h
  · rename_i hDigits
    cases h
    simp [IStream.number, skipSpace, hDigits]

/-- Where no number starts, the read fails and takes nothing that
could be missed. -/
theorem number_of_no_leadingNumber (h : leadingNumber text = none) (convert : Bool → Nat → Option α) :
    ∃ left, number convert ⟨text, false⟩ = (none, ⟨left, true⟩) := by
  unfold leadingNumber at h
  dsimp only at h
  split at h
  · rename_i hDigits
    refine ⟨(takeSign (text.dropWhile isSpace)).2.dropWhile Char.isDigit, ?_⟩
    simp [IStream.number, skipSpace, hDigits]
  · cases h

/-- A number that is read in the line is what the line has there. -/
theorem Within.number (convert : Bool → Nat → Option α) {state : LineState} {s : IStream} (h : Within rest state s)
    (hRest : StartsNoNumber rest) :
    (number convert s).1 = (scan convert state).1 ∧ Within rest (scan convert state).2 (number convert s).2 := by
  cases h with
  | failed left => exact ⟨rfl, .failed left⟩
  | @reading text hLine =>
    cases hLead : leadingNumber text with
    | none =>
      obtain ⟨left, hNumber⟩ := number_of_no_leadingNumber (leadingNumber_line hRest hLead) convert
      simp only [hNumber, scan, hLead]
      exact ⟨trivial, .failed left⟩
    | some lead =>
      obtain ⟨negative, n, tail⟩ := lead
      have hTail : '\n' ∉ tail := fun hMem => hLine ((suffix_leadingNumber hLead).mem hMem)
      have hAppend : leadingNumber (text ++ '\n' :: rest) = some (negative, n, tail ++ '\n' :: rest) :=
        leadingNumber_append hLead (by simp)
      rw [number_of_leadingNumber hAppend convert]
      cases hValue : convert negative n with
      | none =>
        simp only [scan, hLead, hValue]
        exact ⟨trivial, .failed _⟩
      | some value =>
        simp only [scan, hLead, hValue]
        exact ⟨trivial, .reading hTail⟩

/-- A word is read within its line if the line has one. -/
theorem word_line (h : text.dropWhile isSpace ≠ []) :
    word ⟨text ++ '\n' :: rest, false⟩ = (some (firstWord text), ⟨afterWord text ++ '\n' :: rest, false⟩) := by
  have hSkip : skipSpace ⟨text ++ '\n' :: rest, false⟩ = text.dropWhile isSpace ++ '\n' :: rest := by
    rw [skipSpace, List.dropWhile_append, if_neg (by simpa using h)]
  have hStop : ∀ c ∈ ('\n' :: rest).head?, (!isSpace c) = false := by simp [isSpace]
  simp only [word, hSkip, takeWhile_append_stop hStop, dropWhile_append_stop hStop, firstWord, afterWord]
  simp

/-- A line that is used up does not hide the next one. -/
theorem word_blank (h : text.dropWhile isSpace = []) :
    word ⟨text ++ rest, false⟩ = word ⟨rest, false⟩ := by
  have hSkip : skipSpace ⟨text ++ rest, false⟩ = skipSpace ⟨rest, false⟩ := by
    rw [skipSpace, List.dropWhile_append, h]
    rfl
  simp only [word, hSkip, Bool.false_eq_true, if_false]

/-- The rest of a line ends at its newline. -/
theorem skipLine_line (h : '\n' ∉ text) : skipLine ⟨text ++ '\n' :: rest, false⟩ = ⟨rest, false⟩ := by
  have hDrop : (text ++ '\n' :: rest).dropWhile (· ≠ '\n') = '\n' :: rest :=
    dropWhile_append_before (ne_newline_of_notMem h) (by simp)
  simp only [skipLine, hDrop]
  simp

/-- Behind a word an end of the text is left. -/
theorem suffix_afterWord (text : List Char) : afterWord text <:+ text :=
  (List.dropWhile_suffix _).trans (List.dropWhile_suffix _)

end Text
