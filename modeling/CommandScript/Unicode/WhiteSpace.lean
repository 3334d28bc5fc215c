import CommandScript.Unicode.Ranges

/-!
# White space

`isWhiteSpace` is the property White_Space of Unicode, which separates the words of a pattern.
It is wider than the blanks of a script and than `Char.isWhitespace`.
-/

namespace CommandScript.Unicode

/-- The ranges of White_Space. -/
def whiteSpace : List (Nat × Nat) :=
  [(0x9, 0xd), (0x20, 0x20), (0x85, 0x85), (0xa0, 0xa0), (0x1680, 0x1680), (0x2000, 0x200a),
    (0x2028, 0x2029), (0x202f, 0x202f), (0x205f, 0x205f), (0x3000, 0x3000)]

/-- Whether a character has the property White_Space. -/
def isWhiteSpace (c : Char) : Bool :=
  inRanges whiteSpace c

end CommandScript.Unicode
