import Mathlib.Data.List.Basic
import Mathlib.Data.List.TakeWhile
import TokenBudget.Text.Scanner

namespace TokenBudget.Text

/-!
# What scanners take

A scanner that takes its part off a text leaves the rest to the scanner after it,
`Scanner.bind_of_takes`.  With this rule a text is read in the steps in which it
was written, and each step is an equation about one part and whatever follows it.
-/

/-- Digits are not white space. -/
theorem isBlank_of_isDigit
    {char : Char}
    (digit : char.isDigit = true) :
    isBlank char = false := by
  have range : 48 ≤ char.toNat ∧ char.toNat ≤ 57 := by
    simpa [Char.isDigit, UInt32.le_iff_toNat_le] using digit
  simp [isBlank, blankRanges]
  omega

theorem padded_ne_nil
    (width number : Nat) :
    padded width number ≠ [] := by
  rw [padded, digits]
  split <;> simp

/-- The first character of a padded number is a digit. -/
theorem isDigit_head_padded
    (width number : Nat)
    (rest : List Char) :
    ∀ char ∈ (padded width number ++ rest).head?, char.isDigit = true := by
  intro char first
  rw [List.head?_append_of_ne_nil _ (padded_ne_nil width number)] at first
  exact isDigit_of_mem_padded (List.mem_of_mem_head? first)

namespace Scanner

variable
    {First Next : Type}
    {text rest : List Char}

theorem bind_apply
    (scanner : Scanner First)
    (next : First → Scanner Next)
    (text : List Char) :
    (scanner >>= next) text = (scanner text).bind fun result => next result.1 result.2 :=
  rfl

theorem bind_of_takes
    {scanner : Scanner First}
    {next : First → Scanner Next}
    {taken : First}
    (takes : scanner text = some (taken, rest)) :
    (scanner >>= next) text = next taken rest := by
  rw [bind_apply, takes, Option.bind_some]

theorem pure_takes
    (value : First)
    (text : List Char) :
    (pure value : Scanner First) text = some (value, text) :=
  rfl

theorem rest_takes (text : List Char) :
    Scanner.rest text = some (text, text) :=
  rfl

theorem peek?_takes
    (first : Char)
    (text : List Char) :
    Scanner.peek? (first :: text) = some (some first, first :: text) :=
  rfl

theorem guard_takes
    {condition : Prop}
    [Decidable condition]
    (holds : condition)
    (text : List Char) :
    (guard condition : Scanner Unit) text = some ((), text) := by
  simp only [guard, if_pos holds]
  rfl

theorem one_takes
    {test : Char → Bool}
    {char : Char}
    (passes : test char = true)
    (rest : List Char) :
    Scanner.one test (char :: rest) = some (char, rest) := by
  simp [Scanner.one, passes]

@[simp]
theorem char_takes
    (mark : Char)
    (rest : List Char) :
    Scanner.char mark (mark :: rest) = some ((), rest) := by
  simp [Scanner.char]

@[simp]
theorem char?_takes
    (mark : Char)
    (rest : List Char) :
    Scanner.char? mark (mark :: rest) = some (true, rest) := by
  simp [Scanner.char?]

/-- Where another character stands, an optional mark takes nothing. -/
theorem char?_passes
    {mark : Char}
    (text : List Char)
    (absent : text.head? ≠ some mark) :
    Scanner.char? mark text = some (false, text) := by
  cases text with
  | nil =>
      rfl
  | cons char text =>
      have other : char ≠ mark := by simpa using absent
      simp [Scanner.char?, other]

/-- A run ends where the first other character stands. -/
theorem run_takes
    {test : Char → Bool}
    {taken : List Char}
    (passes : ∀ char ∈ taken, test char = true)
    (rest : List Char)
    (ends : ∀ char ∈ rest.head?, test char = false) :
    Scanner.run test (taken ++ rest) = some (taken, rest) := by
  have restEnds : rest.takeWhile test = [] ∧ rest.dropWhile test = rest := by
    cases rest with
    | nil =>
        exact ⟨rfl, rfl⟩
    | cons char rest =>
        simp [ends char (by simp)]
  simp [Scanner.run, List.takeWhile_append_of_pos passes, List.dropWhile_append_of_pos passes,
    restEnds]

/-- A run of as many characters as are asked for ends there, whatever follows. -/
theorem runUpTo_takes
    {test : Char → Bool}
    {taken : List Char}
    (passes : ∀ char ∈ taken, test char = true)
    (rest : List Char) :
    Scanner.runUpTo taken.length test (taken ++ rest) = some (taken, rest) := by
  simp [Scanner.runUpTo, List.takeWhile_eq_self_iff.mpr passes]

/-- A run within its limit ends where the first other character stands. -/
theorem runUpTo_takes_of_ends
    {test : Char → Bool}
    {taken : List Char}
    {limit : Nat}
    (passes : ∀ char ∈ taken, test char = true)
    (within : taken.length ≤ limit)
    (rest : List Char)
    (ends : ∀ char ∈ rest.head?, test char = false) :
    Scanner.runUpTo limit test (taken ++ rest) = some (taken, rest) := by
  have restEnds : (rest.take (limit - taken.length)).takeWhile test = [] := by
    cases rest with
    | nil =>
        simp
    | cons char rest =>
        cases limit - taken.length with
        | zero =>
            rfl
        | succ _ =>
            simp [ends char (by simp)]
  simp [Scanner.runUpTo, List.take_append, List.take_of_length_le within,
    List.takeWhile_append_of_pos passes, restEnds]

/-- Before a character that is no white space nothing is passed over. -/
theorem blanks_takes
    (text : List Char)
    (starts : ∀ char ∈ text.head?, isBlank char = false) :
    Scanner.blanks text = some ((), text) := by
  cases text with
  | nil =>
      rfl
  | cons char text =>
      simp [Scanner.blanks, starts char (by simp)]

/-- A number that fills its width is read, whatever follows. -/
theorem number_padded
    {width value : Nat}
    (positive : 0 < width)
    (small : value < Nat.pow 10 width)
    (rest : List Char) :
    Scanner.number width (padded width value ++ rest) = some (value, rest) := by
  have filled := length_padded positive small
  have digits := runUpTo_takes
    (fun char (member : char ∈ padded width value) => isDigit_of_mem_padded member) rest
  rw [filled] at digits
  rw [Scanner.number, bind_of_takes digits,
    bind_of_takes (guard_takes (by simp [padded_ne_nil]) _), pure_takes, value_padded]

/-- A number of any width is read up to what follows it. -/
theorem number_padded_of_ends
    {width value limit : Nat}
    (within : (padded width value).length ≤ limit)
    (rest : List Char)
    (ends : ∀ char ∈ rest.head?, char.isDigit = false) :
    Scanner.number limit (padded width value ++ rest) = some (value, rest) := by
  have digits := runUpTo_takes_of_ends
    (fun char (member : char ∈ padded width value) => isDigit_of_mem_padded member)
    within rest ends
  rw [Scanner.number, bind_of_takes digits,
    bind_of_takes (guard_takes (by simp [padded_ne_nil]) _), pure_takes, value_padded]

end Scanner

end TokenBudget.Text
