import CommandScript.Toml.Scalar
import CommandScript.Toml.Table
import CommandScript.Toml.Text

/-!
# Reading TOML

`Toml.parse?` reads a TOML 1.0 document. The text is a row of statements (`readStatements?`):
headers, and keys with their values. They are put together into tables section by section
(`build?`). Arrays and inline tables may stand in each other, and a dotted key may have parts, up
to a depth that is below `depthLimit`.
-/

namespace CommandScript

namespace Toml

/-- The depth that nesting and dotted keys stay below. -/
def depthLimit : Nat := 80

/-! ## Keys -/

/-- Whether a character can stand in a key without quotes. -/
def isBareKeyChar (c : Char) : Bool :=
  c.isAlphanum || c = '_' || c = '-'

/-- One part of a key. -/
def readKeyPart? (cs : List Char) : Option (String × List Char) :=
  match readLineString? cs with
  | some (s, r) => some (String.ofList s, r)
  | none =>
    match cs.takeWhile isBareKeyChar with
    | [] => none
    | s => some (String.ofList s, cs.dropWhile isBareKeyChar)

/-- A key of at most so many parts, white space around each of them: the parts before the last
one, the last one, and what follows. -/
def readKey? : Nat → List Char → Option (List String × String × List Char)
  | 0, _ => none
  | n + 1, cs =>
    (readKeyPart? (skipSpace cs)).bind fun (part, r) =>
      match skipSpace r with
      | '.' :: r' => (readKey? n r').map fun (path, last, r'') => (part :: path, last, r'')
      | r' => some ([], part, r')

/-! ## Values -/

/-- A text without the white space, line ends and comments it starts with; the truth value says
whether it starts within a comment. A control in a comment stays, where nothing can be read. -/
def skipTrivia : Bool → List Char → List Char
  | _, [] => []
  | _, '\n' :: cs => skipTrivia false cs
  | _, '\r' :: '\n' :: cs => skipTrivia false cs
  | true, c :: cs => if isTextChar c then skipTrivia true cs else c :: cs
  | false, c :: cs =>
    if isSpace c then skipTrivia false cs
    else if c = '#' then skipTrivia true cs
    else c :: cs

mutual

/-- A value. The first number bounds the work, the second one the depth. -/
def readValue? : Nat → Nat → List Char → Option (Toml × List Char)
  | 0, _, _ => none
  | n + 1, depth, '[' :: cs =>
    match depth with
    | 0 => none
    | depth' + 1 => readItems? n depth' [] (skipTrivia false cs)
  | n + 1, depth, '\x7b' :: cs =>
    match depth with
    | 0 => none
    | depth' + 1 =>
      match skipSpace cs with
      | '\x7d' :: r => some (.table [], r)
      | r => readPairs? n depth' [] r
  | _, _, cs =>
    if cs.head?.any fun c => c = '"' || c = '\'' then
      (readString? cs).map fun (s, r) => (.string (String.ofList s), r)
    else
      let (run, r) := readRun cs
      (ofRun? run).map fun v => (v, r)

/-- The items of an array after those in `done`, the last one first there. -/
def readItems? : Nat → Nat → List Toml → List Char → Option (Toml × List Char)
  | 0, _, _, _ => none
  | _, _, done, ']' :: cs => some (.array done.reverse, cs)
  | n + 1, depth, done, cs =>
    (readValue? n depth cs).bind fun (v, r) =>
      match skipTrivia false r with
      | ',' :: r' => readItems? n depth (v :: done) (skipTrivia false r')
      | ']' :: r' => some (.array (v :: done).reverse, r')
      | _ => none

/-- The keys and values of an inline table after those in `done`. -/
def readPairs? : Nat → Nat → Entries → List Char → Option (Toml × List Char)
  | 0, _, _, _ => none
  | n + 1, depth, done, cs =>
    (readKey? (depthLimit - 1) cs).bind fun (path, key, r) =>
      match r with
      | '=' :: r =>
        (readValue? n depth (skipSpace r)).bind fun (v, r) =>
          (insert? key v path done).bind fun done' =>
            match skipSpace r with
            | ',' :: r => readPairs? n depth done' r
            | '\x7d' :: r => some (.table (entriesToToml done'), r)
            | _ => none
      | _ => none

end

/-- A value at the top of a document. A value takes at least one character, and so does each
bracket around it. -/
def readTopValue? (cs : List Char) : Option (Toml × List Char) :=
  readValue? (2 * cs.length + 2) (depthLimit - 1) cs

/-! ## Statements -/

/-- A statement of a document. -/
inductive Statement
  /-- A key and its value. -/
  | pair (path : List String) (key : String) (value : Toml)
  /-- The header of a table. -/
  | table (path : List String) (key : String)
  /-- The header of the next table of an array. -/
  | nextTable (path : List String) (key : String)
  deriving Repr

/-- What follows the end of a line, which white space and a comment may precede. -/
def readLineEnd? (cs : List Char) : Option (List Char) :=
  let rest := match skipSpace cs with
    | '#' :: cs => cs.dropWhile isTextChar
    | cs => cs
  match rest with
  | [] => some []
  | '\n' :: r => some r
  | '\r' :: '\n' :: r => some r
  | _ => none

/-- A statement with the end of its line. -/
def readStatement? : List Char → Option (Statement × List Char)
  | '[' :: '[' :: cs =>
    (readKey? (depthLimit - 1) cs).bind fun (path, key, r) =>
      match r with
      | ']' :: ']' :: r => (readLineEnd? r).map fun r => (.nextTable path key, r)
      | _ => none
  | '[' :: cs =>
    (readKey? (depthLimit - 1) cs).bind fun (path, key, r) =>
      match r with
      | ']' :: r => (readLineEnd? r).map fun r => (.table path key, r)
      | _ => none
  | cs =>
    (readKey? (depthLimit - 1) cs).bind fun (path, key, r) =>
      match r with
      | '=' :: r =>
        (readTopValue? (skipSpace r)).bind fun (v, r) =>
          (readLineEnd? r).map fun r => (.pair path key v, r)
      | _ => none

/-- The statements of a text. The number bounds how many lines they take. -/
def readStatements? : Nat → List Char → Option (List Statement)
  | 0, cs => if (skipSpace cs).isEmpty then some [] else none
  | n + 1, cs =>
    match skipSpace cs with
    | [] => some []
    | c :: r =>
      if c = '\n' || c = '\r' || c = '#' then
        (readLineEnd? (c :: r)).bind (readStatements? n)
      else
        (readStatement? (c :: r)).bind fun (s, r) => (readStatements? n r).map (s :: ·)

/-! ## Documents -/

/-- Add keys and values to the entries of a table. -/
def fill? (pairs : List (List String × String × Toml)) (es : Entries) : Option Entries :=
  pairs.foldlM (fun es p => insert? p.2.1 p.2.2 p.1 es) es

/-- The keys and values that statements start with, and the statements from the next header. -/
def splitPairs : List Statement → List (List String × String × Toml) × List Statement
  | .pair path key v :: ss =>
    let (pairs, rest) := splitPairs ss
    ((path, key, v) :: pairs, rest)
  | ss => ([], ss)

/-- Add the sections of a document to the entries of its root. The number bounds the sections. -/
def addSections? : Nat → List Statement → Entries → Option Entries
  | _, [], es => some es
  | 0, _, _ => none
  | n + 1, s :: ss, es =>
    let (pairs, rest) := splitPairs ss
    match s with
    | .table path key =>
      (update? (openTable? (fill? pairs) key) path es).bind (addSections? n rest)
    | .nextTable path key =>
      (update? (addTable? (fill? pairs) key) path es).bind (addSections? n rest)
    | .pair path key v => (insert? key v path es).bind (addSections? n ss)

/-- The document that statements write. -/
def build? (ss : List Statement) : Option Toml :=
  (addSections? ss.length ss []).map fun es => .table (entriesToToml es)

/-- A text without the byte order mark it starts with. -/
def skipByteOrderMark : List Char → List Char
  | '\ufeff' :: cs => cs
  | cs => cs

/-- The document that a text writes. -/
def ofChars? (cs : List Char) : Option Toml :=
  let cs := skipByteOrderMark cs
  (readStatements? (cs.length + 1) cs).bind build?

/-- The document that a text writes. -/
def parse? (text : String) : Option Toml :=
  ofChars? text.toList

end Toml

end CommandScript
