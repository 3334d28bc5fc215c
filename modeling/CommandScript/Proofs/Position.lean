import CommandScript.TokenStream

/-!
# Positions in a token sequence

The first end of input of a sequence stands at its `endPosition`, which is the length of a
sequence that has none. `tokenAt` reads the token at a position, and at every later position the
end of input again. `cursorAt` is the cursor that stands at a position and, past the end
position, the cursor that stays there. So a cursor reads what stands at its position
(`current_cursorAt`), a move leads to the next position (`advance_cursorAt`), and both hold of
every position without a bound.
-/

namespace CommandScript

/-- The position of the first end of input, or the length of a sequence that has none. -/
def endPosition (ts : List Placed) : Nat :=
  ts.findIdx Placed.isEnd

/-- The token read at a position. Past the end position it is the end of input again. -/
def tokenAt (ts : List Placed) (p : Nat) : Placed :=
  ts[min p (endPosition ts)]?.getD .endOfInput

/-- The cursor that stands at a position, or at the end position if that comes before. -/
def cursorAt (ts : List Placed) (p : Nat) : Cursor :=
  ⟨min p (endPosition ts), ts.drop (min p (endPosition ts))⟩

variable (ts : List Placed) (p : Nat)

/-! ## Reading at a position -/

theorem endPosition_le_length : endPosition ts ≤ ts.length :=
  List.findIdx_le_length

/-- Before the end position the sequence has a token, and that token is read. -/
theorem getElem?_eq_tokenAt {ts : List Placed} {p : Nat} (hp : p < endPosition ts) :
    ts[p]? = some (tokenAt ts p) := by
  have hlt : p < ts.length := Nat.lt_of_lt_of_le hp (endPosition_le_length ts)
  rw [tokenAt, Nat.min_eq_left (Nat.le_of_lt hp), List.getElem?_eq_getElem hlt]
  rfl

/-- What is read at a position is a token of the sequence, or the end of input. -/
theorem tokenAt_mem_or_eq : tokenAt ts p ∈ ts ∨ tokenAt ts p = .endOfInput := by
  rw [tokenAt]
  cases h : ts[min p (endPosition ts)]? with
  | none => exact Or.inr rfl
  | some t => exact Or.inl (List.mem_of_getElem? h)

theorem tokenAt_of_endPosition_le {ts : List Placed} {p : Nat} (hp : endPosition ts ≤ p) :
    tokenAt ts p = tokenAt ts (endPosition ts) := by
  rw [tokenAt, tokenAt, Nat.min_eq_right hp, Nat.min_self]

/-- The end position reads as an end of input, whether the sequence has one or not. -/
theorem isEnd_tokenAt_endPosition : (tokenAt ts (endPosition ts)).isEnd = true := by
  rw [tokenAt, Nat.min_self]
  by_cases hlt : endPosition ts < ts.length
  · rw [List.getElem?_eq_getElem hlt]
    exact List.findIdx_getElem
  · rw [List.getElem?_eq_none (Nat.le_of_not_lt hlt)]
    rfl

/-- An end of input is read from the end position on, and nowhere before. -/
theorem isEnd_tokenAt_iff : (tokenAt ts p).isEnd = true ↔ endPosition ts ≤ p := by
  constructor
  · intro h
    refine Nat.le_of_not_lt fun hlt => ?_
    have hnot := List.not_of_lt_findIdx hlt
    have hget := getElem?_eq_tokenAt hlt
    rw [List.getElem?_eq_getElem (Nat.lt_of_lt_of_le hlt (endPosition_le_length ts))] at hget
    rw [Option.some.inj hget, h] at hnot
    cases hnot
  · intro hp
    rw [tokenAt_of_endPosition_le hp]
    exact isEnd_tokenAt_endPosition ts

/-! ## The cursor at a position -/

@[simp] theorem cursorAt_zero : cursorAt ts 0 = ⟨0, ts⟩ := by
  simp [cursorAt]

@[simp] theorem position_cursorAt : (cursorAt ts p).position = min p (endPosition ts) :=
  rfl

@[simp] theorem current_cursorAt : (cursorAt ts p).current = tokenAt ts p := by
  rw [Cursor.current, cursorAt, List.head?_drop, tokenAt]

@[simp] theorem peek_cursorAt : (cursorAt ts p).peek = (tokenAt ts p).token := by
  rw [Cursor.peek, current_cursorAt]

@[simp] theorem line_cursorAt : (cursorAt ts p).line = (tokenAt ts p).line := by
  rw [Cursor.line, current_cursorAt]

theorem atEnd_cursorAt_iff : (cursorAt ts p).atEnd = true ↔ endPosition ts ≤ p := by
  rw [Cursor.atEnd, current_cursorAt, isEnd_tokenAt_iff]

theorem atEnd_cursorAt_of_lt {ts : List Placed} {p : Nat} (hp : p < endPosition ts) :
    (cursorAt ts p).atEnd = false := by
  rw [← Bool.not_eq_true, atEnd_cursorAt_iff]
  exact Nat.not_le_of_lt hp

/-- Past the end position every cursor is the one at the end position. -/
theorem cursorAt_min : cursorAt ts (min p (endPosition ts)) = cursorAt ts p := by
  simp [cursorAt]

/-- A move leads to the next position. -/
@[simp] theorem advance_cursorAt : (cursorAt ts p).advance = cursorAt ts (p + 1) := by
  by_cases hp : endPosition ts ≤ p
  · rw [Cursor.advance_of_atEnd ((atEnd_cursorAt_iff ts p).mpr hp), cursorAt, cursorAt,
      Nat.min_eq_right hp, Nat.min_eq_right (Nat.le_succ_of_le hp)]
  · have hlt : p < endPosition ts := Nat.lt_of_not_le hp
    obtain ⟨t, rest, hr, ha⟩ := Cursor.advance_of_not_atEnd (atEnd_cursorAt_of_lt hlt)
    have hdrop : ts.drop p = t :: rest := by
      simpa [cursorAt, Nat.min_eq_left (Nat.le_of_lt hlt)] using hr
    have hrest : ts.drop (p + 1) = rest := by
      rw [← List.tail_drop, hdrop, List.tail_cons]
    rw [ha, cursorAt, cursorAt, Nat.min_eq_left (Nat.le_of_lt hlt), Nat.min_eq_left hlt, hrest]

/-- Moves from a position lead to later positions, and nowhere else. -/
theorem exists_eq_cursorAt_of_reaches {c d : Cursor} (h : c.Reaches d) :
    ∀ p, c = cursorAt ts p → ∃ n, d = cursorAt ts (p + n) := by
  induction h with
  | refl c => exact fun p hp => ⟨0, hp⟩
  | @move c d _ ih =>
    intro p hp
    obtain ⟨n, hn⟩ := ih (p + 1) (by rw [hp, advance_cursorAt])
    exact ⟨1 + n, by rw [hn, Nat.add_assoc]⟩

end CommandScript
