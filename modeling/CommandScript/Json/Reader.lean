import CommandScript.Json

/-!
# Reading JSON

A text is first cut into marks (`readMarks?`): brackets, commas, colons, words, numbers and
strings, with white space between them. The marks are then read one by one with a stack of the
arrays and objects that are still open (`readValue?`, `readRest?`). Both refuse every text
outside the format, so neither trailing commas nor leading zeros nor comments are read. Nesting
has no limit.
-/

namespace CommandScript

namespace Json

/-! ## Marks -/

/-- The smallest parts of a text that have a meaning. -/
inductive Mark
  | openArray | closeArray | openObject | closeObject | comma | colon
  | null
  | bool (value : Bool)
  | number (literal : List Char)
  | string (literal : List Char)
  deriving DecidableEq, Repr

/-- The white space of the format. -/
def isSpace (c : Char) : Bool :=
  c = ' ' || c = '\t' || c = '\n' || c = '\r'

/-- The string that ends at the next quote which is not escaped, and what follows the quote. -/
def readString? : List Char → Option (List Char × List Char)
  | [] => none
  | '"' :: cs => some ([], cs)
  | '\\' :: 'u' :: a :: b :: c :: d :: cs =>
    if (hexValue4? a b c d).isSome then
      (readString? cs).map fun (s, r) => ('\\' :: 'u' :: a :: b :: c :: d :: s, r)
    else none
  | '\\' :: e :: cs =>
    if (shortEscape? e).isSome then (readString? cs).map fun (s, r) => ('\\' :: e :: s, r)
    else none
  | c :: cs =>
    if c = '\\' ∨ c.toNat < 32 then none
    else (readString? cs).map fun (s, r) => (c :: s, r)

/-- Digits, of which there must be one. -/
def readDigits? (cs : List Char) : Option (List Char × List Char) :=
  match cs.takeWhile Char.isDigit with
  | [] => none
  | ds => some (ds, cs.dropWhile Char.isDigit)

/-- The digits before a point: a zero alone, or digits that start with another one. -/
def readWhole? : List Char → Option (List Char × List Char)
  | '0' :: cs => some (['0'], cs)
  | cs => readDigits? cs

/-- A point and digits, or nothing. -/
def readFraction? : List Char → Option (List Char × List Char)
  | '.' :: cs => (readDigits? cs).map fun (ds, r) => ('.' :: ds, r)
  | cs => some ([], cs)

/-- The sign of an exponent, or nothing. -/
def readExponentSign : List Char → List Char × List Char
  | '+' :: cs => (['+'], cs)
  | '-' :: cs => (['-'], cs)
  | cs => ([], cs)

/-- The letter, sign and digits of an exponent, or nothing. -/
def readExponent? : List Char → Option (List Char × List Char)
  | [] => some ([], [])
  | e :: cs =>
    if e = 'e' ∨ e = 'E' then
      let (sign, cs') := readExponentSign cs
      (readDigits? cs').map fun (ds, r) => (e :: sign ++ ds, r)
    else some ([], e :: cs)

/-- A number without its sign. -/
def readUnsigned? (cs : List Char) : Option (List Char × List Char) :=
  (readWhole? cs).bind fun (whole, cs) =>
    (readFraction? cs).bind fun (fraction, cs) =>
      (readExponent? cs).map fun (exponent, cs) => (whole ++ fraction ++ exponent, cs)

/-- A number. -/
def readNumber? : List Char → Option (List Char × List Char)
  | '-' :: cs => (readUnsigned? cs).map fun (n, r) => ('-' :: n, r)
  | cs => readUnsigned? cs

/-- A mark, and the text after it. -/
def readMark? : List Char → Option (Mark × List Char)
  | '[' :: cs => some (.openArray, cs)
  | ']' :: cs => some (.closeArray, cs)
  | '\x7b' :: cs => some (.openObject, cs)
  | '\x7d' :: cs => some (.closeObject, cs)
  | ',' :: cs => some (.comma, cs)
  | ':' :: cs => some (.colon, cs)
  | 'n' :: 'u' :: 'l' :: 'l' :: cs => some (.null, cs)
  | 't' :: 'r' :: 'u' :: 'e' :: cs => some (.bool true, cs)
  | 'f' :: 'a' :: 'l' :: 's' :: 'e' :: cs => some (.bool false, cs)
  | '"' :: cs => (readString? cs).map fun (s, r) => (.string s, r)
  | cs => (readNumber? cs).map fun (n, r) => (.number n, r)

/-- The marks of a text. The first argument bounds their number. -/
def readMarksWithin? : Nat → List Char → Option (List Mark)
  | _, [] => some []
  | 0, _ => none
  | n + 1, c :: cs =>
    if isSpace c then readMarksWithin? n cs
    else (readMark? (c :: cs)).bind fun (m, r) => (readMarksWithin? n r).map (m :: ·)

/-- The marks of a text, of which there are no more than characters. -/
def readMarks? (cs : List Char) : Option (List Mark) :=
  readMarksWithin? cs.length cs

/-! ## Values -/

/-- An array or an object that is still open: the parts read so far, the last one first, and for
an object the key of the member whose value is next. -/
inductive Frame
  | array (done : List Json)
  | object (done : List (List Char × Json)) (key : List Char)
  deriving Repr

mutual

/-- Read a value inside the open arrays and objects, and then the rest. -/
def readValue? : List Frame → List Mark → Option Json
  | fs, .null :: ms => readRest? fs .null ms
  | fs, .bool b :: ms => readRest? fs (.bool b) ms
  | fs, .number n :: ms => readRest? fs (.number n) ms
  | fs, .string s :: ms => readRest? fs (.string s) ms
  | fs, .openArray :: .closeArray :: ms => readRest? fs (.array []) ms
  | fs, .openArray :: ms => readValue? (.array [] :: fs) ms
  | fs, .openObject :: .closeObject :: ms => readRest? fs (.object []) ms
  | fs, .openObject :: .string k :: .colon :: ms => readValue? (.object [] k :: fs) ms
  | _, _ => none

/-- Go on after a value inside the open arrays and objects. -/
def readRest? : List Frame → Json → List Mark → Option Json
  | [], v, [] => some v
  | .array done :: fs, v, .comma :: ms => readValue? (.array (v :: done) :: fs) ms
  | .array done :: fs, v, .closeArray :: ms => readRest? fs (.array (v :: done).reverse) ms
  | .object done k :: fs, v, .comma :: .string k' :: .colon :: ms =>
    readValue? (.object ((k, v) :: done) k' :: fs) ms
  | .object done k :: fs, v, .closeObject :: ms =>
    readRest? fs (.object ((k, v) :: done).reverse) ms
  | _, _, _ => none

end

/-- The value that a text writes. -/
def ofChars? (cs : List Char) : Option Json :=
  (readMarks? cs).bind (readValue? [])

/-- The value that a text writes. -/
def parse? (text : String) : Option Json :=
  ofChars? text.toList

end Json

end CommandScript
