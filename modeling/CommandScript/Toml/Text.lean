import CommandScript.Json

/-!
# Texts in TOML

The characters of TOML and its four kinds of strings: between double quotes with escapes or
between single quotes without, and each on one line or, between three quotes, on several. Every
reader here starts after the opening quotes and gives the text and what follows the closing
ones. A line end in a string is a line feed, however it is written.
-/

namespace CommandScript

namespace Toml

/-- The white space within a line. -/
def isSpace (c : Char) : Bool :=
  c = ' ' || c = '\t'

/-- The characters of comments and strings: the tab and all that are not controls. -/
def isTextChar (c : Char) : Bool :=
  c = '\t' || (decide (32 ≤ c.toNat) && c.toNat != 127)

/-- A text without the white space it starts with. -/
def skipSpace (cs : List Char) : List Char :=
  cs.dropWhile isSpace

/-- A text without the line end it starts with, if there is one. -/
def skipLineEnd : List Char → List Char
  | '\n' :: cs => cs
  | '\r' :: '\n' :: cs => cs
  | cs => cs

/-- Whether a text starts with white space and a line end. -/
def endsLine (cs : List Char) : Bool :=
  match skipSpace cs with
  | '\n' :: _ => true
  | '\r' :: '\n' :: _ => true
  | _ => false

/-- The character with a code point, if it is one. -/
def charOfCode? (n : Nat) : Option Char :=
  if n.isValidChar then some (Char.ofNat n) else none

/-- The character that a backslash and a letter stand for. -/
def shortEscape? : Char → Option Char
  | 'b' => some '\x08'
  | 't' => some '\t'
  | 'n' => some '\n'
  | 'f' => some '\x0c'
  | 'r' => some '\r'
  | '"' => some '"'
  | '\\' => some '\\'
  | _ => none

/-- The character that an escape after its backslash stands for, and what follows. -/
def readEscape? : List Char → Option (Char × List Char)
  | 'u' :: a :: b :: c :: d :: cs =>
    ((Json.hexValue4? a b c d).bind charOfCode?).map fun x => (x, cs)
  | 'U' :: a :: b :: c :: d :: e :: f :: g :: h :: cs =>
    match Json.hexValue4? a b c d, Json.hexValue4? e f g h with
    | some high, some low => (charOfCode? (high * 65536 + low)).map fun x => (x, cs)
    | _, _ => none
  | x :: cs => (shortEscape? x).map fun y => (y, cs)
  | [] => none

/-- Put a character before a text that was read. -/
def before (c : Char) (read : Option (List Char × List Char)) : Option (List Char × List Char) :=
  read.map fun (s, r) => (c :: s, r)

/-- A text between double quotes. The number bounds its characters. -/
def readBasic? : Nat → List Char → Option (List Char × List Char)
  | 0, _ => none
  | _, [] => none
  | _, '"' :: cs => some ([], cs)
  | n + 1, '\\' :: cs => (readEscape? cs).bind fun (c, r) => before c (readBasic? n r)
  | n + 1, c :: cs => if isTextChar c then before c (readBasic? n cs) else none

/-- A text between single quotes. -/
def readLiteral? : List Char → Option (List Char × List Char)
  | [] => none
  | '\'' :: cs => some ([], cs)
  | c :: cs => if isTextChar c then before c (readLiteral? cs) else none

/-- What three closing quotes leave of a row of them: up to two more belong to the text. -/
def closeMulti (q : Char) : List Char → List Char × List Char
  | a :: b :: cs => if a = q ∧ b = q then ([q, q], cs)
    else if a = q then ([q], b :: cs) else ([], a :: b :: cs)
  | [a] => if a = q then ([q], []) else ([], [a])
  | [] => ([], [])

/-- A text on several lines between double quotes. A backslash at the end of a line takes away
the white space and the line ends that follow it; the truth value says whether that is going on.
The number bounds the characters. -/
def readMultiBasic? : Nat → Bool → List Char → Option (List Char × List Char)
  | 0, _, _ => none
  | _, _, [] => none
  | n + 1, trimming, '\r' :: '\n' :: cs =>
    if trimming then readMultiBasic? n true cs else before '\n' (readMultiBasic? n false cs)
  | n + 1, trimming, '\n' :: cs =>
    if trimming then readMultiBasic? n true cs else before '\n' (readMultiBasic? n false cs)
  | _, _, '"' :: '"' :: '"' :: cs => some (closeMulti '"' cs)
  | n + 1, _, '\\' :: cs =>
    if endsLine cs then readMultiBasic? n true cs
    else (readEscape? cs).bind fun (c, r) => before c (readMultiBasic? n false r)
  | n + 1, trimming, c :: cs =>
    if trimming && isSpace c then readMultiBasic? n true cs
    else if isTextChar c then before c (readMultiBasic? n false cs)
    else none

/-- A text on several lines between single quotes. -/
def readMultiLiteral? : List Char → Option (List Char × List Char)
  | [] => none
  | '\r' :: '\n' :: cs => before '\n' (readMultiLiteral? cs)
  | '\n' :: cs => before '\n' (readMultiLiteral? cs)
  | '\'' :: '\'' :: '\'' :: cs => some (closeMulti '\'' cs)
  | c :: cs => if isTextChar c then before c (readMultiLiteral? cs) else none

/-- A string on one line, from its opening quote. -/
def readLineString? : List Char → Option (List Char × List Char)
  | '"' :: cs => readBasic? (cs.length + 1) cs
  | '\'' :: cs => readLiteral? cs
  | _ => none

/-- A string of any kind, from its opening quotes. -/
def readString? : List Char → Option (List Char × List Char)
  | '"' :: '"' :: '"' :: cs => readMultiBasic? (cs.length + 1) false (skipLineEnd cs)
  | '\'' :: '\'' :: '\'' :: cs => readMultiLiteral? (skipLineEnd cs)
  | cs => readLineString? cs

end Toml

end CommandScript
