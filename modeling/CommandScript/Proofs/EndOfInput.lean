import CommandScript.Proofs.Relocation

/-!
# What follows the end of input

A sequence of tokens may lack its end of input, which is then read where the tokens run out, on line
1. Or it may have one, on any line, and further tokens after it. To a parse these are the same
(`parse_append_endOfInput`). `Cursor.closedBy` puts an end of input and further tokens after the
tokens of a cursor. The cursor still reads the same and moves in the same way, at the end as well,
where both cursors stay. Only the line of the end of input is another one. An attempt at the end
would copy it into an action, if a keyword is spelled as the end of input is, but a run makes no
attempt there.
-/

namespace CommandScript

namespace Cursor

/-- A cursor with an end of input after its tokens, and further tokens after that. -/
def closedBy (line : Nat) (tail : List Placed) (c : Cursor) : Cursor :=
  ⟨c.position, c.rest ++ ⟨.endOfInput, line⟩ :: tail⟩

variable (line : Nat) (tail : List Placed) (c : Cursor)

theorem peek_closedBy : (c.closedBy line tail).peek = c.peek := by
  obtain ⟨p, rest⟩ := c
  cases rest with
  | nil => rfl
  | cons t rest => rfl

theorem advance_closedBy : (c.closedBy line tail).advance = c.advance.closedBy line tail := by
  obtain ⟨p, rest⟩ := c
  cases rest with
  | nil => rfl
  | cons t rest =>
    simp only [advance, closedBy, List.cons_append]
    split <;> rfl

theorem line_closedBy {c : Cursor} (hc : c.atEnd = false) :
    (c.closedBy line tail).line = c.line := by
  obtain ⟨t, rest, hr, -⟩ := advance_of_not_atEnd hc
  rw [Cursor.line, Cursor.line, current, current, closedBy, hr]
  rfl

end Cursor

/-- An end of input after the tokens, and what follows it, leaves the tokens where they are. -/
theorem isRelocation_closedBy (line : Nat) (tail : List Placed) :
    IsRelocation (Cursor.closedBy line tail) id id where
  peek_eq := Cursor.peek_closedBy line tail
  advance_eq := Cursor.advance_closedBy line tail
  line_eq _ hc := Cursor.line_closedBy line tail hc
  position_eq _ _ := rfl

theorem ParseError.relocate_id : ParseError.relocate id id = id := by
  funext e
  cases e <;> rfl

/-- Runs go alike whether the tokens have an end of input after them or not. -/
theorem simulation_closedBy (g : Grammar) (line : Nat) (tail : List Placed) :
    Simulation g g (fun c c' => c' = c.closedBy line tail) id id := by
  have h := (isRelocation_closedBy line tail).simulation g
  rw [ParseError.relocate_id] at h
  exact h

/-- An end of input after the tokens, on whatever line, and whatever tokens after it: parses, strict
or recovering, give what they give on the tokens alone. -/
theorem parse_append_endOfInput (g : Grammar) (ts tail : List Placed) (line : Nat) :
    parse g (ts ++ ⟨.endOfInput, line⟩ :: tail) = parse g ts ∧
      ∀ n, parseRecovering g n (ts ++ ⟨.endOfInput, line⟩ :: tail) = parseRecovering g n ts := by
  have h := simulation_closedBy g line tail
  exact ⟨h.parse_same rfl, h.parseRecovering_same rfl⟩

end CommandScript
