namespace TokenBudget.Text

/-!
# White space

The characters with the Unicode property `White_Space`: 25 of them, in ten
ranges.
-/

/-- The first and last character of each range of white space. -/
def blankRanges : List (Nat × Nat) :=
  [(0x0009, 0x000D),
    (0x0020, 0x0020),
    (0x0085, 0x0085),
    (0x00A0, 0x00A0),
    (0x1680, 0x1680),
    (0x2000, 0x200A),
    (0x2028, 0x2029),
    (0x202F, 0x202F),
    (0x205F, 0x205F),
    (0x3000, 0x3000)]

/-- The character is white space. -/
def isBlank (char : Char) : Bool :=
  blankRanges.any fun range => range.1 ≤ char.toNat && char.toNat ≤ range.2

end TokenBudget.Text
