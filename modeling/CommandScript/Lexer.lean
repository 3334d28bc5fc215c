import CommandScript.Token
import CommandScript.Diagnostic

/-!
# Reading tokens from a text

A text is cut into pieces (`pieces`), of which each is a blank, a character that is skipped, or
the spelling of one token. Nothing is lost: the spellings of the pieces, in order, are the text
(`spelling_pieces`). `lex` numbers the lines of the pieces and keeps their tokens, followed by
the end of input, and their diagnostics. It reads every text.
-/

namespace CommandScript

/-! ## Characters of a script -/

/-- The blanks of a script: space, tab, line feed and carriage return. -/
def isBlank (c : Char) : Bool :=
  c = ' ' || c = '\t' || c = '\n' || c = '\r'

/-- The characters a word starts with: ASCII letters and the underscore. -/
def isWordStart (c : Char) : Bool :=
  c.isAlpha || c = '_'

/-- The characters a word goes on with: those it starts with and ASCII digits. -/
def isWordBody (c : Char) : Bool :=
  isWordStart c || c.isDigit

/-- The two characters around a quoted text. -/
def isQuote (c : Char) : Bool :=
  c = '"' || c = '\''

/-- The operator spelled by a character and an equals sign. -/
def operatorWithEquals? : Char → Option Kind
  | '>' => some .geq
  | '<' => some .leq
  | '=' => some .eq
  | '!' => some .neq
  | _ => none

/-- The operator or punctuation mark spelled by one character. -/
def mark? : Char → Option Kind
  | ';' => some .semicolon
  | ':' => some .colon
  | ',' => some .comma
  | '.' => some .dot
  | '(' => some .parenL
  | ')' => some .parenR
  | '[' => some .bracketL
  | ']' => some .bracketR
  | '\x7b' => some .braceL
  | '\x7d' => some .braceR
  | '+' => some .add
  | '-' => some .sub
  | '*' => some .mul
  | '/' => some .div
  | '%' => some .mod
  | '&' => some .and
  | '|' => some .or
  | '!' => some .not
  | '>' => some .gt
  | '<' => some .lt
  | '=' => some .assign
  | _ => none

/-! ## Pieces -/

/-- A piece of a text. -/
inductive Piece
  /-- One blank. -/
  | blank (char : Char)
  /-- One character that starts no token. -/
  | unknown (char : Char)
  /-- An operator or punctuation mark, in its only spelling. -/
  | mark (kind : Kind)
  /-- Digits, and after a point the digits of a fraction; without a point there are none. -/
  | number (whole fraction : List Char)
  /-- A word or a reserved word. -/
  | word (chars : List Char)
  /-- A variable, without its dollar sign. -/
  | var (chars : List Char)
  /-- The text between two equal quotes, or after a quote that is never closed. -/
  | quoted (quote : Char) (chars : List Char) (closed : Bool)
  deriving DecidableEq, Repr

namespace Piece

/-- The characters of the text that a piece stands for. -/
def spelling : Piece → List Char
  | blank c => [c]
  | unknown c => [c]
  | mark k => (k.fixedText?.getD "").toList
  | number whole [] => whole
  | number whole fraction => whole ++ '.' :: fraction
  | word cs => cs
  | var cs => '$' :: cs
  | quoted q cs closed => q :: cs ++ if closed then [q] else []

/-- The token a piece spells. -/
def token? : Piece → Option Token
  | blank _ => none
  | unknown _ => none
  | mark k => some (.fixed k)
  | number whole fraction => some ⟨.number, String.ofList (number whole fraction).spelling⟩
  | word cs =>
    match Kind.keyword? (String.ofList cs) with
    | some k => some (.fixed k)
    | none => some ⟨.word, String.ofList cs⟩
  | var cs => some ⟨.var, String.ofList cs⟩
  | quoted _ cs _ => some ⟨.str, String.ofList cs⟩

/-- The diagnostic of a piece that starts on `line`. -/
def diagnostic? (line : Nat) : Piece → Option Diagnostic
  | unknown c => some (.unknownChar c line)
  | quoted q _ false => some (.unterminatedString q line)
  | _ => none

/-- The number of lines that end inside a piece. -/
def lineBreaks (p : Piece) : Nat :=
  p.spelling.count '\n'

end Piece

/-- Digits and their fraction, after a first digit. A point belongs to a number only if a digit
follows it. -/
def readNumber (c : Char) (cs : List Char) : Piece × List Char :=
  let whole := c :: cs.takeWhile Char.isDigit
  match cs.dropWhile Char.isDigit with
  | '.' :: d :: r =>
    if d.isDigit then (.number whole (d :: r.takeWhile Char.isDigit), r.dropWhile Char.isDigit)
    else (.number whole [], '.' :: d :: r)
  | r => (.number whole [], r)

/-- The text up to the next quote equal to `q`, or all of it if there is none. -/
def readQuoted (q : Char) (cs : List Char) : Piece × List Char :=
  match cs.dropWhile (· != q) with
  | [] => (.quoted q cs false, [])
  | _ :: r => (.quoted q (cs.takeWhile (· != q)) true, r)

/-- The operator or punctuation mark that a text starts with, the longer one first. -/
def readMark? (c : Char) (cs : List Char) : Option (Piece × List Char) :=
  match operatorWithEquals? c, cs with
  | some k, '=' :: r => some (.mark k, r)
  | _, _ => (mark? c).map fun k => (.mark k, cs)

/-- The first piece of a text, and the rest of the text. -/
def readPiece (c : Char) (cs : List Char) : Piece × List Char :=
  if isBlank c then (.blank c, cs)
  else match readMark? c cs with
    | some read => read
    | none =>
      if c.isDigit then readNumber c cs
      else if isWordStart c then (.word (c :: cs.takeWhile isWordBody), cs.dropWhile isWordBody)
      else if c = '$' then (.var (cs.takeWhile isWordBody), cs.dropWhile isWordBody)
      else if isQuote c then readQuoted c cs
      else (.unknown c, cs)

/-! ## Nothing is lost -/

theorem spelling_of_operatorWithEquals? {c : Char} {k : Kind}
    (h : operatorWithEquals? c = some k) : (Piece.mark k).spelling = [c, '='] := by
  unfold operatorWithEquals? at h
  split at h <;> cases h <;> rfl

theorem spelling_of_mark? {c : Char} {k : Kind} (h : mark? c = some k) :
    (Piece.mark k).spelling = [c] := by
  unfold mark? at h
  split at h <;> cases h <;> rfl

theorem spelling_readMark? {c : Char} {cs : List Char} {p : Piece} {r : List Char}
    (h : readMark? c cs = some (p, r)) : p.spelling ++ r = c :: cs := by
  unfold readMark? at h
  split at h
  · next hk =>
    cases h
    simp [spelling_of_operatorWithEquals? hk]
  · obtain ⟨k, hk, hp⟩ := Option.map_eq_some_iff.mp h
    cases hp
    simp [spelling_of_mark? hk]

theorem spelling_readNumber (c : Char) (cs : List Char) :
    (readNumber c cs).1.spelling ++ (readNumber c cs).2 = c :: cs := by
  have split_digits (l : List Char) : l.takeWhile Char.isDigit ++ l.dropWhile Char.isDigit = l :=
    List.takeWhile_append_dropWhile
  unfold readNumber
  split
  · next d r h =>
    have hcs := split_digits cs
    split <;> simp [Piece.spelling, split_digits, ← h]
  · simp [Piece.spelling, split_digits]

theorem spelling_readQuoted (q : Char) (cs : List Char) :
    (readQuoted q cs).1.spelling ++ (readQuoted q cs).2 = q :: cs := by
  have hcs : cs.takeWhile (· != q) ++ cs.dropWhile (· != q) = cs :=
    List.takeWhile_append_dropWhile
  unfold readQuoted
  split
  · simp [Piece.spelling]
  · next x r h =>
    have hx : x = q := by
      have := List.head_dropWhile_not (p := (· != q)) (l := cs) (by simp [h])
      simpa [h] using this
    rw [h] at hcs
    simpa [Piece.spelling, hx] using hcs

theorem spelling_readPiece (c : Char) (cs : List Char) :
    (readPiece c cs).1.spelling ++ (readPiece c cs).2 = c :: cs := by
  have body : cs.takeWhile isWordBody ++ cs.dropWhile isWordBody = cs :=
    List.takeWhile_append_dropWhile
  unfold readPiece
  split
  · simp [Piece.spelling]
  · split
    · next h => exact spelling_readMark? h
    · repeat' split
      · exact spelling_readNumber c cs
      · simp [Piece.spelling, body]
      · next h => simp [Piece.spelling, body, h]
      · exact spelling_readQuoted c cs
      · simp [Piece.spelling]

/-- The first piece of a text takes at least one character. -/
theorem spelling_readPiece_ne_nil (c : Char) (cs : List Char) :
    (readPiece c cs).1.spelling ≠ [] := by
  unfold readPiece
  split
  · simp [Piece.spelling]
  · split
    · next h =>
      unfold readMark? at h
      split at h
      · next hk =>
        cases h
        simp [spelling_of_operatorWithEquals? hk]
      · obtain ⟨k, hk, hp⟩ := Option.map_eq_some_iff.mp h
        cases hp
        simp [spelling_of_mark? hk]
    · repeat' split
      · unfold readNumber
        split
        · split <;> simp [Piece.spelling]
        · simp [Piece.spelling]
      · simp [Piece.spelling]
      · simp [Piece.spelling]
      · unfold readQuoted
        split <;> simp [Piece.spelling]
      · simp [Piece.spelling]

theorem length_readPiece_lt (c : Char) (cs : List Char) :
    (readPiece c cs).2.length < (c :: cs).length := by
  have h := congrArg List.length (spelling_readPiece c cs)
  have hp := List.length_pos_iff.mpr (spelling_readPiece_ne_nil c cs)
  rw [List.length_append] at h
  omega

/-- The pieces of a text. -/
def pieces : List Char → List Piece
  | [] => []
  | c :: cs => (readPiece c cs).1 :: pieces (readPiece c cs).2
termination_by s => s.length
decreasing_by exact length_readPiece_lt c cs

/-- The spellings of the pieces of a text, in order, are the text. -/
theorem spelling_pieces (s : List Char) : (pieces s).flatMap Piece.spelling = s := by
  induction s using pieces.induct with
  | case1 => simp [pieces]
  | case2 c cs ih => rw [pieces, List.flatMap_cons, ih, spelling_readPiece]

/-! ## Tokens and diagnostics -/

/-- The tokens of pieces that start on `line`, and the end of input after them. -/
def tokensOf (line : Nat) : List Piece → List Placed
  | [] => [⟨.endOfInput, line⟩]
  | p :: ps =>
    match p.token? with
    | some t => ⟨t, line⟩ :: tokensOf (line + p.lineBreaks) ps
    | none => tokensOf (line + p.lineBreaks) ps

/-- The diagnostics of pieces that start on `line`. -/
def diagnosticsOf (line : Nat) : List Piece → List Diagnostic
  | [] => []
  | p :: ps =>
    match p.diagnostic? line with
    | some d => d :: diagnosticsOf (line + p.lineBreaks) ps
    | none => diagnosticsOf (line + p.lineBreaks) ps

/-- What reading a text gives: its tokens, the last of them the end of input, and its
diagnostics, both in the order of the text. -/
structure Lexed where
  tokens : List Placed
  diagnostics : List Diagnostic
  deriving DecidableEq, Repr

namespace Lexed

/-- Whether the text was read without an anomaly. -/
def isClean (l : Lexed) : Bool :=
  l.diagnostics.isEmpty

/-- The kinds of the tokens. -/
def kinds (l : Lexed) : List Kind :=
  l.tokens.map (·.token.kind)

end Lexed

/-- Read a text, whose first line is line 1. -/
def lex (source : String) : Lexed :=
  let ps := pieces source.toList
  ⟨tokensOf 1 ps, diagnosticsOf 1 ps⟩

end CommandScript
