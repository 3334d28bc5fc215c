import CommandScript.Proofs.Relocation

/-!
# Lines play no part in parsing

Parses copy the lines of tokens into actions and errors and do not look at them. To say so,
`unlined` puts everything on line 1, the line of the end of input that is read where a sequence has
none. This is a relocation (`isRelocation_unlined`), so parses give the same on tokens without their
lines, but for the lines in what they give (`parse_unlined`). Hence the results of two sequences of
the same tokens differ in their lines only (`parse_eq_of_map_token_eq`).
-/

namespace CommandScript

/-! ## Taking lines away -/

/-- A token on line 1. -/
def Token.onFirstLine (t : Token) : Placed :=
  ⟨t, 1⟩

namespace Cursor

/-- A cursor in the same tokens on line 1. -/
def unlined (c : Cursor) : Cursor :=
  ⟨c.position, c.rest.map fun t => t.token.onFirstLine⟩

variable (c : Cursor)

@[simp] theorem current_unlined : c.unlined.current = c.peek.onFirstLine := by
  obtain ⟨p, rest⟩ := c
  cases rest with
  | nil => rfl
  | cons t rest => rfl

@[simp] theorem peek_unlined : c.unlined.peek = c.peek := by
  rw [peek, current_unlined]
  rfl

@[simp] theorem line_unlined : c.unlined.line = 1 := by
  rw [line, current_unlined]
  rfl

@[simp] theorem atEnd_unlined : c.unlined.atEnd = c.atEnd := by
  rw [atEnd, current_unlined]
  rfl

@[simp] theorem advance_unlined : c.unlined.advance = c.advance.unlined := by
  obtain ⟨p, rest⟩ := c
  cases rest with
  | nil => rfl
  | cons t rest =>
    have hend : t.token.onFirstLine.isEnd = t.isEnd := rfl
    simp only [advance, unlined, List.map_cons, hend]
    split <;> rfl

end Cursor

/-- An action on line 1. -/
def Action.unlined (a : Action) : Action :=
  { a with line := 1 }

/-- An error on line 1. -/
def ParseError.unlined : ParseError → ParseError
  | noRule found position _ closest => .noRule found position 1 closest
  | expected wanted found position _ => .expected wanted found position 1
  | invalidNumber text position _ => .invalidNumber text position 1

theorem ParseError.relocate_eq_unlined :
    ParseError.relocate (fun _ => 1) id = ParseError.unlined := by
  funext e
  cases e <;> rfl

/-! ## Parses without lines -/

/-- Putting all tokens on line 1 leaves the tokens and their positions. -/
theorem isRelocation_unlined : IsRelocation Cursor.unlined (fun _ => 1) id where
  peek_eq c := c.peek_unlined
  advance_eq c := c.advance_unlined
  line_eq c _ := c.line_unlined
  position_eq _ _ := rfl

theorem simulation_unlined (g : Grammar) :
    Simulation g g (fun c c' => c' = c.unlined) Action.unlined ParseError.unlined := by
  have h := isRelocation_unlined.simulation g
  rw [ParseError.relocate_eq_unlined] at h
  exact h

/-- Without the lines of the tokens, the result of a parse lacks its lines, and else is the same. -/
theorem parse_unlined (g : Grammar) (ts : List Placed) :
    parse g (ts.map fun t => t.token.onFirstLine) =
      mapResult Action.unlined ParseError.unlined (parse g ts) :=
  (simulation_unlined g).parse_eq rfl

/-- Parses of the same tokens on other lines give the same result, but for its lines. -/
theorem parse_eq_of_map_token_eq {ts ts' : List Placed}
    (h : ts.map Placed.token = ts'.map Placed.token) (g : Grammar) :
    mapResult Action.unlined ParseError.unlined (parse g ts) =
      mapResult Action.unlined ParseError.unlined (parse g ts') := by
  have hlines := congrArg (List.map Token.onFirstLine) h
  rw [List.map_map, List.map_map] at hlines
  rw [← parse_unlined, ← parse_unlined]
  exact congrArg (parse g) hlines

end CommandScript
