import CommandScript.ParseError

/-!
# Token streams

A `Cursor` stands before the rest of a token sequence and knows its position. It reads the end
of input where the sequence has run out, and it never moves past an end of input
(`Cursor.advance`). A `TokenStream` is a sequence with a position in it, which can be saved and
restored. A test that fails leaves the position where it was.
-/

namespace CommandScript

/-! ## Cursors -/

/-- A position in a token sequence and the tokens from there on. -/
structure Cursor where
  position : Nat
  rest : List Placed
  deriving Repr

namespace Cursor

/-- The token at the cursor, the end of input if the sequence has run out. -/
def current (c : Cursor) : Placed :=
  c.rest.head?.getD .endOfInput

/-- The token at the cursor, without its line. -/
def peek (c : Cursor) : Token :=
  c.current.token

/-- The line of the token at the cursor. -/
def line (c : Cursor) : Nat :=
  c.current.line

/-- Whether the cursor stands at an end of input. -/
def atEnd (c : Cursor) : Bool :=
  c.current.isEnd

/-- The cursor one token further, or where it is at an end of input. -/
def advance (c : Cursor) : Cursor :=
  match c.rest with
  | [] => c
  | t :: rest => if t.isEnd then c else ⟨c.position + 1, rest⟩

/-- The number of tokens that at most `n` moves from the start of a sequence pass. -/
def passed : Nat → List Placed → Nat
  | 0, _ => 0
  | _, [] => 0
  | n + 1, t :: rest => if t.isEnd then 0 else passed n rest + 1

/-- The cursor after `n` moves. -/
def advanceBy (c : Cursor) (n : Nat) : Cursor :=
  let k := passed n c.rest
  ⟨c.position + k, c.rest.drop k⟩

theorem position_advance_le (c : Cursor) : c.position ≤ c.advance.position := by
  unfold advance
  split
  · exact Nat.le_refl _
  · split
    · exact Nat.le_refl _
    · exact Nat.le_succ _

theorem length_rest_advance_le (c : Cursor) : c.advance.rest.length ≤ c.rest.length := by
  unfold advance
  split
  · exact Nat.le_refl _
  · next t rest h =>
    split
    · exact Nat.le_refl _
    · simp [h]

/-- At an end of input a cursor stays. -/
theorem advance_of_atEnd {c : Cursor} (h : c.atEnd = true) : c.advance = c := by
  unfold advance
  split
  · rfl
  · next t rest hr =>
    have ht : t.isEnd = true := by simpa [atEnd, current, hr] using h
    rw [if_pos ht]

/-- Before an end of input a cursor moves past one token. -/
theorem advance_of_not_atEnd {c : Cursor} (h : c.atEnd = false) :
    ∃ t rest, c.rest = t :: rest ∧ c.advance = ⟨c.position + 1, rest⟩ := by
  unfold advance
  split
  · next hr => simp [atEnd, current, hr, Placed.isEnd, Placed.endOfInput, Token.isEnd,
      Token.endOfInput, Token.fixed] at h
  · next t rest hr =>
    have ht : t.isEnd = false := by simpa [atEnd, current, hr] using h
    exact ⟨t, rest, hr, by simp [ht]⟩

/-- Off the end, a move makes the rest shorter. -/
theorem length_rest_advance_lt {c : Cursor} (h : c.atEnd = false) :
    c.advance.rest.length < c.rest.length := by
  obtain ⟨t, rest, hr, ha⟩ := advance_of_not_atEnd h
  rw [ha, hr]
  exact Nat.lt_succ_self _

/-- A cursor into a token sequence: the tokens from it on are those of the sequence from its
position on. -/
def IsIn (ts : List Placed) (c : Cursor) : Prop :=
  c.rest = ts.drop c.position

theorem IsIn.advance {ts : List Placed} {c : Cursor} (h : c.IsIn ts) : c.advance.IsIn ts := by
  cases hc : c.atEnd with
  | true => rwa [advance_of_atEnd hc]
  | false =>
    obtain ⟨t, rest, hr, ha⟩ := advance_of_not_atEnd hc
    rw [IsIn, hr] at h
    rw [ha, IsIn, ← List.tail_drop, ← h, List.tail_cons]

/-- Moves lead from one cursor to another. -/
inductive Reaches : Cursor → Cursor → Prop
  | refl (c : Cursor) : Reaches c c
  | move {c d : Cursor} (h : Reaches c.advance d) : Reaches c d

namespace Reaches

variable {c d e : Cursor}

theorem trans (h : c.Reaches d) (h' : d.Reaches e) : c.Reaches e := by
  induction h with
  | refl c => exact h'
  | move _ ih => exact .move (ih h')

theorem advance (h : c.Reaches d) : c.Reaches d.advance :=
  h.trans (.move (.refl _))

theorem position_le (h : c.Reaches d) : c.position ≤ d.position := by
  induction h with
  | refl c => exact Nat.le_refl _
  | @move c d _ ih => exact Nat.le_trans c.position_advance_le ih

theorem isIn {ts : List Placed} (h : c.Reaches d) (hc : c.IsIn ts) : d.IsIn ts := by
  induction h with
  | refl c => exact hc
  | move _ ih => exact ih hc.advance

end Reaches

end Cursor

/-! ## Streams -/

/-- A saved position of a stream. -/
structure Checkpoint where
  position : Nat
  deriving DecidableEq, Repr

/-- A token sequence with a position in it. -/
structure TokenStream where
  tokens : List Placed
  position : Nat
  deriving Repr

namespace TokenStream

/-- A stream at the start of its sequence. -/
def ofTokens (tokens : List Placed) : TokenStream :=
  ⟨tokens, 0⟩

/-- The number of tokens of the whole sequence. -/
def size (s : TokenStream) : Nat :=
  s.tokens.length

/-- Whether the whole sequence has no token. -/
def isEmpty (s : TokenStream) : Bool :=
  s.tokens.isEmpty

/-- The tokens from the position to the end of the sequence. -/
def remaining (s : TokenStream) : List Placed :=
  s.tokens.drop s.position

/-- The cursor at the position of a stream. -/
def cursor (s : TokenStream) : Cursor :=
  ⟨s.position, s.remaining⟩

/-- The stream at the position of a cursor into its sequence. -/
def moveTo (s : TokenStream) (c : Cursor) : TokenStream :=
  { s with position := c.position }

/-- Whether a token other than the end of input is next. -/
def hasNext (s : TokenStream) : Bool :=
  !s.cursor.atEnd

/-- The next token with its line. -/
def current (s : TokenStream) : Placed :=
  s.cursor.current

/-- The next token. -/
def peek (s : TokenStream) : Token :=
  s.cursor.peek

/-- The line of the next token. -/
def line (s : TokenStream) : Nat :=
  s.cursor.line

/-- Move past the next token, unless it is the end of input. -/
def skip (s : TokenStream) : TokenStream :=
  s.moveTo s.cursor.advance

/-- Read the next token and move past it. -/
def next (s : TokenStream) : Token × TokenStream :=
  (s.peek, s.skip)

/-- Move past the next token `n` times. -/
def skipMany (s : TokenStream) (n : Nat) : TokenStream :=
  s.moveTo (s.cursor.advanceBy n)

/-- The position, to come back to. -/
def save (s : TokenStream) : Checkpoint :=
  ⟨s.position⟩

/-- Go back to a saved position. -/
def restore (s : TokenStream) (c : Checkpoint) : TokenStream :=
  { s with position := c.position }

/-- Go back to the start of the sequence. -/
def reset (s : TokenStream) : TokenStream :=
  { s with position := 0 }

/-- Whether the next token is of a kind. -/
def testKind (s : TokenStream) (k : Kind) : Bool :=
  s.peek.kind == k

/-- Whether the next token has a text. -/
def testText (s : TokenStream) (text : String) : Bool :=
  s.peek.text == text

/-- Move past the next token if it is of a kind, and tell whether it was. -/
def skipIfKind (s : TokenStream) (k : Kind) : Bool × TokenStream :=
  if s.testKind k then (true, s.skip) else (false, s)

/-- Move past the next token if it has a text, and tell whether it had. -/
def skipIfText (s : TokenStream) (text : String) : Bool × TokenStream :=
  if s.testText text then (true, s.skip) else (false, s)

/-- The error that another token than the next one was wanted. -/
def unexpected (s : TokenStream) (wanted : String) : ParseError :=
  .expected wanted s.peek s.position s.line

/-- Read the next token, which must be of a kind. -/
def expectKind (s : TokenStream) (k : Kind) : Except ParseError Token × TokenStream :=
  if s.testKind k then (.ok s.peek, s.skip) else (.error (s.unexpected k.label), s)

/-- Read the next token, which must have a text. -/
def expectText (s : TokenStream) (text : String) : Except ParseError Token × TokenStream :=
  if s.testText text then (.ok s.peek, s.skip)
  else (.error (s.unexpected ("'" ++ text ++ "'")), s)

end TokenStream

end CommandScript
