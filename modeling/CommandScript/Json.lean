/-!
# JSON

A `Json` is a JSON text without its white space: numbers and strings are kept as they are
written, and objects keep the order and the repeats of their members. `Json.ofText` writes a
text as a string, with the escapes that the format asks for and no others; `unescape?` reads
the text back (`Json.text?`). A string whose escapes name half of a surrogate pair alone is
well written, but holds no text.
-/

namespace CommandScript

/-- A JSON text. -/
inductive Json
  | null
  | bool (value : Bool)
  /-- A number, as it is written. -/
  | number (literal : List Char)
  /-- A string, as it is written between its quotes. -/
  | string (literal : List Char)
  | array (items : List Json)
  /-- Members with their keys, the keys as they are written between their quotes. -/
  | object (members : List (List Char × Json))
  deriving Repr, Inhabited

namespace Json

/-! ## Writing strings -/

/-- The hexadecimal digit of a number below 16, in lower case. -/
def hexDigit (n : Nat) : Char :=
  Nat.digitChar n

/-- A character as it is written in a string: quotes, backslashes and controls are escaped, and
every other character stands for itself. -/
def escapeChar (c : Char) : List Char :=
  if c = '"' then ['\\', '"']
  else if c = '\\' then ['\\', '\\']
  else if c = '\x08' then ['\\', 'b']
  else if c = '\x0c' then ['\\', 'f']
  else if c = '\n' then ['\\', 'n']
  else if c = '\r' then ['\\', 'r']
  else if c = '\t' then ['\\', 't']
  else if c.toNat < 32 then
    ['\\', 'u', '0', '0', hexDigit (c.toNat / 16), hexDigit (c.toNat % 16)]
  else [c]

/-- A text as it is written in a string. -/
def escape (text : List Char) : List Char :=
  text.flatMap escapeChar

/-! ## Reading strings -/

/-- The value of a hexadecimal digit, in either case. -/
def hexValue? (c : Char) : Option Nat :=
  if '0' ≤ c ∧ c ≤ '9' then some (c.toNat - '0'.toNat)
  else if 'a' ≤ c ∧ c ≤ 'f' then some (c.toNat - 'a'.toNat + 10)
  else if 'A' ≤ c ∧ c ≤ 'F' then some (c.toNat - 'A'.toNat + 10)
  else none

/-- The number that four hexadecimal digits denote. -/
def hexValue4? (a b c d : Char) : Option Nat :=
  match hexValue? a, hexValue? b, hexValue? c, hexValue? d with
  | some a, some b, some c, some d => some (((a * 16 + b) * 16 + c) * 16 + d)
  | _, _, _, _ => none

/-- The character that a backslash and a letter stand for. -/
def shortEscape? : Char → Option Char
  | '"' => some '"'
  | '\\' => some '\\'
  | '/' => some '/'
  | 'b' => some '\x08'
  | 'f' => some '\x0c'
  | 'n' => some '\n'
  | 'r' => some '\r'
  | 't' => some '\t'
  | _ => none

/-- The text of a well-written string, if it has one. -/
def unescape? : List Char → Option (List Char)
  | [] => some []
  | '\\' :: 'u' :: a :: b :: c :: d :: cs =>
    match hexValue4? a b c d with
    | none => none
    | some high =>
      if 0xd800 ≤ high ∧ high < 0xdc00 then
        match cs with
        | '\\' :: 'u' :: a' :: b' :: c' :: d' :: cs' =>
          match hexValue4? a' b' c' d' with
          | none => none
          | some low =>
            if 0xdc00 ≤ low ∧ low < 0xe000 then
              (unescape? cs').map
                (Char.ofNat (0x10000 + (high - 0xd800) * 0x400 + (low - 0xdc00)) :: ·)
            else none
        | _ => none
      else if 0xdc00 ≤ high ∧ high < 0xe000 then none
      else (unescape? cs).map (Char.ofNat high :: ·)
  | '\\' :: e :: cs =>
    match shortEscape? e with
    | some c => (unescape? cs).map (c :: ·)
    | none => none
  | c :: cs => (unescape? cs).map (c :: ·)

/-! ## Building and looking in -/

/-- A text as a string. -/
def ofText (text : String) : Json :=
  string (escape text.toList)

/-- A natural number. -/
def ofNat (n : Nat) : Json :=
  number (Nat.toDigits 10 n)

/-- An object with texts as keys. -/
def ofFields (fields : List (String × Json)) : Json :=
  object (fields.map fun f => (escape f.1.toList, f.2))

/-- The text of a string that has one. -/
def text? : Json → Option String
  | string literal => (unescape? literal).map String.ofList
  | _ => none

mutual

/-- A value with the members of every object in the order of their keys. -/
def sorted : Json → Json
  | array items => array (sortedItems items)
  | object members => object ((sortedMembers members).mergeSort fun a b => decide (a.1 ≤ b.1))
  | v => v

/-- Values with the members of every object in the order of their keys. -/
def sortedItems : List Json → List Json
  | [] => []
  | v :: vs => sorted v :: sortedItems vs

/-- Members whose values have the members of every object in the order of their keys. -/
def sortedMembers : List (List Char × Json) → List (List Char × Json)
  | [] => []
  | (k, v) :: ms => (k, sorted v) :: sortedMembers ms

end

end Json

end CommandScript
