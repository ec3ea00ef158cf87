namespace TokenBudget.Text

/-!
# Decimal digits

Natural numbers written in the ten ASCII digits, padded with zeros to a width
where one is asked for, and the value of a run of digits.  Reading what was
written gives the number back: `value_digits` and `value_padded`.  Digits of
other bases, up to sixteen, are only read.
-/

/-- The digit for a number below ten. -/
def digit (value : Nat) : Char :=
  Char.ofNat (48 + value)

/-- The value of a digit. -/
def digitValue (char : Char) : Nat :=
  char.toNat - 48

/-- The number that a run of digits spells. -/
def value (run : List Char) : Nat :=
  run.foldl (fun total char => total * 10 + digitValue char) 0

/-- The value of a hexadecimal digit in either case. -/
def hexValue? (char : Char) : Option Nat :=
  if '0' ≤ char ∧ char ≤ '9' then
    some (char.toNat - '0'.toNat)
  else if 'a' ≤ char ∧ char ≤ 'f' then
    some (char.toNat - 'a'.toNat + 10)
  else if 'A' ≤ char ∧ char ≤ 'F' then
    some (char.toNat - 'A'.toNat + 10)
  else
    none

/-- The character is a digit of a base up to sixteen. -/
def isDigitOf
    (base : Nat)
    (char : Char) :
    Bool :=
  match hexValue? char with
  | some value => value < base
  | none => false

/-- The number that a run of digits spells in a base. -/
def valueInBase
    (base : Nat)
    (run : List Char) :
    Nat :=
  run.foldl (fun total char => total * base + (hexValue? char).getD 0) 0

/-- The digits of a number, the most significant first. -/
def digits (number : Nat) : List Char :=
  if number < 10 then
    [digit number]
  else
    digits (number / 10) ++ [digit (number % 10)]

/-- The digits of a number, with zeros in front up to a width. -/
def padded
    (width : Nat)
    (number : Nat) :
    List Char :=
  List.replicate (width - (digits number).length) '0' ++ digits number

theorem isDigit_digit
    {number : Nat}
    (small : number < 10) :
    (digit number).isDigit = true := by
  revert number
  decide

theorem digitValue_digit
    {number : Nat}
    (small : number < 10) :
    digitValue (digit number) = number := by
  revert number
  decide

/-- A digit at the end is the last place of the number. -/
theorem value_append_digit
    (run : List Char)
    (char : Char) :
    value (run ++ [char]) = value run * 10 + digitValue char := by
  simp [value]

/-- Zeros in front do not count. -/
theorem value_replicate_append
    (count : Nat)
    (run : List Char) :
    value (List.replicate count '0' ++ run) = value run := by
  have zeros : value (List.replicate count '0') = 0 := by
    induction count with
    | zero =>
        rfl
    | succ count inductionHypothesis =>
        rw [List.replicate_succ', value_append_digit, inductionHypothesis]
        decide
  simp only [value, List.foldl_append] at *
  rw [zeros]

@[simp]
theorem value_digits (number : Nat) :
    value (digits number) = number := by
  fun_induction digits number with
  | case1 number small =>
      simp [value, digitValue_digit small]
  | case2 number _ inductionHypothesis =>
      rw [value_append_digit, inductionHypothesis, digitValue_digit (by omega)]
      omega

@[simp]
theorem value_padded
    (width : Nat)
    (number : Nat) :
    value (padded width number) = number := by
  rw [padded, value_replicate_append, value_digits]

/-- Only digits are written. -/
theorem isDigit_of_mem_digits
    {number : Nat}
    {char : Char}
    (member : char ∈ digits number) :
    char.isDigit = true := by
  fun_induction digits number with
  | case1 number small =>
      simp only [List.mem_singleton] at member
      exact member ▸ isDigit_digit small
  | case2 number _ inductionHypothesis =>
      simp only [List.mem_append, List.mem_singleton] at member
      rcases member with earlier | last
      · exact inductionHypothesis earlier
      · exact last ▸ isDigit_digit (by omega)

/-- Only digits are written in a padded number. -/
theorem isDigit_of_mem_padded
    {width : Nat}
    {number : Nat}
    {char : Char}
    (member : char ∈ padded width number) :
    char.isDigit = true := by
  simp only [padded, List.mem_append, List.mem_replicate] at member
  rcases member with ⟨_, zero⟩ | written
  · exact zero ▸ by decide
  · exact isDigit_of_mem_digits written

/-- A number below a power of ten needs no more digits than the exponent. -/
theorem length_digits_le
    {number : Nat}
    {width : Nat}
    (positive : 0 < width)
    (small : number < Nat.pow 10 width) :
    (digits number).length ≤ width := by
  change number < 10 ^ width at small
  fun_induction digits number generalizing width with
  | case1 number _ =>
      exact positive
  | case2 number large inductionHypothesis =>
      obtain ⟨shorter, rfl⟩ : ∃ shorter, width = shorter + 1 := ⟨width - 1, by omega⟩
      have shorter_pos : 0 < shorter := by
        apply Nat.pos_of_ne_zero
        rintro rfl
        simp at small
        omega
      have quotient_lt : number / 10 < 10 ^ shorter := by
        rw [Nat.pow_succ] at small
        omega
      have := inductionHypothesis shorter_pos quotient_lt
      simp
      omega

/-- A number below a power of ten fills exactly the width of the exponent. -/
theorem length_padded
    {number : Nat}
    {width : Nat}
    (positive : 0 < width)
    (small : number < Nat.pow 10 width) :
    (padded width number).length = width := by
  have := length_digits_le positive small
  simp [padded]
  omega

end TokenBudget.Text
