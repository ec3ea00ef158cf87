import TokenBudget.Text.Blank
import TokenBudget.Text.Digits

namespace TokenBudget.Text

/-!
# Scanners

A scanner takes characters off the front of a text and answers a value with the
rest, or refuses the text.  Scanners are sequenced as a state computation over
the characters still to be read; of two alternatives the second starts where
the first did.
-/

/-- Takes a value off the front of a text, or refuses. -/
abbrev Scanner (Value : Type) := StateT (List Char) Option Value

namespace Scanner

/-- What is still to be read. -/
def rest : Scanner (List Char) :=
  fun text => some (text, text)

/-- The next character, which stays to be read; none at the end. -/
def peek? : Scanner (Option Char) :=
  fun text => some (text.head?, text)

/-- Take the next character if it passes a test. -/
def one (test : Char → Bool) : Scanner Char
  | [] => none
  | char :: text =>
      if test char then some (char, text) else none

/-- Take one given character. -/
def char (expected : Char) : Scanner Unit
  | [] => none
  | char :: text =>
      if char = expected then some ((), text) else none

/-- Take one given character if it comes next, and tell whether it did. -/
def char? (expected : Char) : Scanner Bool
  | [] => some (false, [])
  | char :: text =>
      if char = expected then some (true, text) else some (false, char :: text)

/-- Take the given characters in order. -/
def word : List Char → Scanner Unit
  | [] => pure ()
  | first :: others => do
      char first
      word others

/-- Take the longest run of characters that pass a test. -/
def run (test : Char → Bool) : Scanner (List Char) :=
  fun text => some (text.takeWhile test, text.dropWhile test)

/-- Take the longest run of characters that pass a test, up to a number of them. -/
def runUpTo
    (limit : Nat)
    (test : Char → Bool) :
    Scanner (List Char) :=
  fun text =>
    let taken := (text.take limit).takeWhile test
    some (taken, text.drop taken.length)

/-- Pass over white space. -/
def blanks : Scanner Unit :=
  fun text => some ((), text.dropWhile isBlank)

/-- Take a number of at least one and at most so many digits. -/
def number (limit : Nat) : Scanner Nat := do
  let taken ← runUpTo limit Char.isDigit
  guard (!taken.isEmpty)
  pure (value taken)

/-- Take a number of exactly so many digits. -/
def fixedNumber (width : Nat) : Scanner Nat := do
  let taken ← runUpTo width Char.isDigit
  guard (taken.length = width)
  pure (value taken)

/-- Nothing is left to be read. -/
def finished : Scanner Unit
  | [] => some ((), [])
  | _ :: _ => none

/-- The value of a whole text. -/
def read?
    (scanner : Scanner Value)
    (text : String) :
    Option Value :=
  (scanner text.toList).map Prod.fst

end Scanner

end TokenBudget.Text
