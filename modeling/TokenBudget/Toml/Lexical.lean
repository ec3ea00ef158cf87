import TokenBudget.Text.Scanner

namespace TokenBudget.Toml

/-!
# Lines of TOML

White space within a line is space and tab; lines end in a line feed, which a
carriage return may precede.  Comments hold no control characters but tabs.
-/

open Text (Scanner)

/-- White space within a line. -/
def isGap (char : Char) : Bool :=
  char = ' ' || char = '\t'

/-- A tab, a printable character, or a character beyond ASCII. -/
def isPlain (char : Char) : Bool :=
  char = '\t' || (0x20 ≤ char.toNat && char.toNat ≠ 0x7F)

/-- Pass over white space within a line. -/
def gap : Scanner Unit :=
  fun text => some ((), text.dropWhile isGap)

/-- The end of a line. -/
def newline : Scanner Unit := do
  if ← Scanner.char? '\r' then
    Scanner.char '\n'
  else
    Scanner.char '\n'

/-- A comment up to the end of its line. -/
def comment : Scanner Unit := do
  Scanner.char '#'
  let _ ← Scanner.run isPlain

/-- Pass over a comment, if one comes next. -/
def comments : Scanner Unit := do
  if (← Scanner.peek?) = some '#' then
    comment

/-- The end of a line, or of the text. -/
def lineEnd : Scanner Unit := do
  if (← Scanner.peek?).isSome then
    newline

/-- What may stand after a value or header on its line. -/
def lineRest : Scanner Unit := do
  gap
  comments
  lineEnd

end TokenBudget.Toml
