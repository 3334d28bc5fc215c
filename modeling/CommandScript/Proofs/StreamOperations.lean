import Mathlib.Data.List.Induction
import CommandScript.Proofs.Position

/-!
# Operations on a stream

A stream is asked to look, to move, to save its position and to go back (`Operation`).
`Operation.effect` says what an operation gives, from the tokens and a position alone: the token
that stands there, and the next position, which is never past the end position. A stream that stands
at most at the end position gives just that (`TokenStream.perform_mk`). A move of `n` tokens is `n`
moves of one, so it stops there as well (`Cursor.advanceBy_cursorAt`).

A checkpoint is only a position, and it leads back to that position whatever has been done since
(`TokenStream.restore_after`). So operations stay within the end position if they restore only
checkpoints that were saved before (`TokenStream.stands_after_prefix`), and each of them has its
effect (`TokenStream.clamped_after_operations`).
-/

namespace CommandScript

/-! ## Operations -/

/-- A condition on a token. -/
inductive Condition
  | kind (k : Kind)
  | text (text : String)

namespace Condition

/-- Whether a token meets a condition. -/
def holds (t : Token) : Condition → Bool
  | kind k => t.kind == k
  | text s => t.text == s

/-- What an error says was wanted. -/
def wanted : Condition → String
  | kind k => k.label
  | text s => "'" ++ s ++ "'"

end Condition

/-- An operation on a stream. -/
inductive Operation
  | size
  | isEmpty
  | hasNext
  | current
  | peek
  | line
  | remaining
  | test (c : Condition)
  | next
  | skip
  | skipMany (n : Nat)
  | skipIf (c : Condition)
  | expect (c : Condition)
  | save
  | restore (c : Checkpoint)
  | reset

/-- What an operation answers. -/
inductive Response
  | done
  | count (n : Nat)
  | truth (b : Bool)
  | token (t : Token)
  | placed (t : Placed)
  | tokens (ts : List Placed)
  | checked (result : Except ParseError Token)
  | checkpoint (c : Checkpoint)

namespace TokenStream

/-- Whether the next token meets a condition. -/
def test (s : TokenStream) : Condition → Bool
  | .kind k => s.testKind k
  | .text text => s.testText text

/-- Move past the next token if it meets a condition, and tell whether it did. -/
def skipIf (s : TokenStream) : Condition → Bool × TokenStream
  | .kind k => s.skipIfKind k
  | .text text => s.skipIfText text

/-- Read the next token, which must meet a condition. -/
def expect (s : TokenStream) : Condition → Except ParseError Token × TokenStream
  | .kind k => s.expectKind k
  | .text text => s.expectText text

/-- The answer to an operation, and the stream after it. -/
def perform (s : TokenStream) : Operation → Response × TokenStream
  | .size => (.count s.size, s)
  | .isEmpty => (.truth s.isEmpty, s)
  | .hasNext => (.truth s.hasNext, s)
  | .current => (.placed s.current, s)
  | .peek => (.token s.peek, s)
  | .line => (.count s.line, s)
  | .remaining => (.tokens s.remaining, s)
  | .test c => (.truth (s.test c), s)
  | .next => (.token s.next.1, s.next.2)
  | .skip => (.done, s.skip)
  | .skipMany n => (.done, s.skipMany n)
  | .skipIf c => (.truth (s.skipIf c).1, (s.skipIf c).2)
  | .expect c => (.checked (s.expect c).1, (s.expect c).2)
  | .save => (.checkpoint s.save, s)
  | .restore c => (.done, s.restore c)
  | .reset => (.done, s.reset)

/-- The stream after operations, one after the other. -/
def after (s : TokenStream) (ops : List Operation) : TokenStream :=
  ops.foldl (fun s q => (s.perform q).2) s

end TokenStream

/-- What an operation gives at position `p` of a token sequence, and the position after it, said
without a stream. -/
def Operation.effect (ts : List Placed) (p : Nat) : Operation → Response × Nat
  | size => (.count ts.length, p)
  | isEmpty => (.truth ts.isEmpty, p)
  | hasNext => (.truth (p < endPosition ts), p)
  | current => (.placed (tokenAt ts p), p)
  | peek => (.token (tokenAt ts p).token, p)
  | line => (.count (tokenAt ts p).line, p)
  | remaining => (.tokens (ts.drop p), p)
  | test c => (.truth (c.holds (tokenAt ts p).token), p)
  | next => (.token (tokenAt ts p).token, min (p + 1) (endPosition ts))
  | skip => (.done, min (p + 1) (endPosition ts))
  | skipMany n => (.done, min (p + n) (endPosition ts))
  | skipIf c =>
    if c.holds (tokenAt ts p).token then (.truth true, min (p + 1) (endPosition ts))
    else (.truth false, p)
  | expect c =>
    if c.holds (tokenAt ts p).token then
      (.checked (.ok (tokenAt ts p).token), min (p + 1) (endPosition ts))
    else
      (.checked (.error (.expected c.wanted (tokenAt ts p).token p (tokenAt ts p).line)), p)
  | save => (.checkpoint ⟨p⟩, p)
  | restore c => (.done, c.position)
  | reset => (.done, 0)

/-! ## One operation -/

namespace Cursor

theorem advanceBy_zero (c : Cursor) : c.advanceBy 0 = c := by
  obtain ⟨p, rest⟩ := c
  cases rest <;> rfl

/-- A move of `n + 1` tokens is a move of one and then of `n`. -/
theorem advanceBy_succ (c : Cursor) (n : Nat) : c.advanceBy (n + 1) = c.advance.advanceBy n := by
  obtain ⟨p, rest⟩ := c
  cases rest with
  | nil => cases n <;> rfl
  | cons t rest =>
    rw [advance]
    by_cases ht : t.isEnd = true
    · cases n <;> simp [advanceBy, passed, ht]
    · simp only [advanceBy, passed, ht, Bool.false_eq_true, if_false, List.drop_succ_cons]
      rw [Nat.add_right_comm, Nat.add_assoc]

theorem advanceBy_cursorAt (ts : List Placed) (p n : Nat) :
    (cursorAt ts p).advanceBy n = cursorAt ts (p + n) := by
  induction n generalizing p with
  | zero => exact advanceBy_zero _
  | succ n ih => rw [advanceBy_succ, advance_cursorAt, ih, Nat.add_right_comm, Nat.add_assoc]

end Cursor

namespace TokenStream

section

variable {ts : List Placed} {p : Nat} (hp : p ≤ endPosition ts)

include hp

theorem cursor_mk : (mk ts p).cursor = cursorAt ts p := by
  rw [cursorAt, Nat.min_eq_left hp]
  rfl

theorem current_mk : (mk ts p).current = tokenAt ts p := by
  rw [current, cursor_mk hp, current_cursorAt]

theorem peek_mk : (mk ts p).peek = (tokenAt ts p).token := by
  rw [peek, cursor_mk hp, peek_cursorAt]

theorem line_mk : (mk ts p).line = (tokenAt ts p).line := by
  rw [line, cursor_mk hp, line_cursorAt]

theorem hasNext_mk : (mk ts p).hasNext = decide (p < endPosition ts) := by
  rw [hasNext, cursor_mk hp, Bool.eq_iff_iff, Bool.not_eq_true', decide_eq_true_eq,
    ← Bool.not_eq_true, atEnd_cursorAt_iff, Nat.not_le]

theorem skip_mk : (mk ts p).skip = ⟨ts, min (p + 1) (endPosition ts)⟩ := by
  rw [skip, cursor_mk hp, advance_cursorAt]
  rfl

theorem skipMany_mk (n : Nat) : (mk ts p).skipMany n = ⟨ts, min (p + n) (endPosition ts)⟩ := by
  rw [skipMany, cursor_mk hp, Cursor.advanceBy_cursorAt]
  rfl

theorem test_mk (c : Condition) : (mk ts p).test c = c.holds (tokenAt ts p).token := by
  rw [← peek_mk hp]
  cases c <;> rfl

theorem skipIf_mk (c : Condition) : (mk ts p).skipIf c =
    if c.holds (tokenAt ts p).token then (true, ⟨ts, min (p + 1) (endPosition ts)⟩)
    else (false, ⟨ts, p⟩) := by
  rw [← skip_mk hp, ← test_mk hp]
  cases c <;> rfl

theorem expect_mk (c : Condition) : (mk ts p).expect c =
    if c.holds (tokenAt ts p).token then
      (.ok (tokenAt ts p).token, ⟨ts, min (p + 1) (endPosition ts)⟩)
    else
      (.error (.expected c.wanted (tokenAt ts p).token p (tokenAt ts p).line), ⟨ts, p⟩) := by
  rw [← skip_mk hp, ← test_mk hp, ← peek_mk hp, ← line_mk hp]
  cases c <;> rfl

/-- A stream that stands at most at the end position gives the effect of an operation at its
position. -/
theorem perform_mk (q : Operation) :
    (mk ts p).perform q = ((q.effect ts p).1, ⟨ts, (q.effect ts p).2⟩) := by
  cases q with
  | size => rfl
  | isEmpty => rfl
  | hasNext => rw [perform, hasNext_mk hp, Operation.effect]
  | current => rw [perform, current_mk hp, Operation.effect]
  | peek => rw [perform, peek_mk hp, Operation.effect]
  | line => rw [perform, line_mk hp, Operation.effect]
  | remaining => rfl
  | test c => rw [perform, test_mk hp, Operation.effect]
  | next => rw [perform, next, peek_mk hp, skip_mk hp, Operation.effect]
  | skip => rw [perform, skip_mk hp, Operation.effect]
  | skipMany n => rw [perform, skipMany_mk hp, Operation.effect]
  | skipIf c =>
    rw [perform, skipIf_mk hp, Operation.effect]
    split <;> rfl
  | expect c =>
    rw [perform, expect_mk hp, Operation.effect]
    split <;> rfl
  | save => rfl
  | restore c => rfl
  | reset => rfl

end

/-- A stream of a token sequence that stands at most at its end position. -/
structure Stands (ts : List Placed) (s : TokenStream) : Prop where
  tokens : s.tokens = ts
  position_le : s.position ≤ endPosition ts

namespace Stands

variable {ts : List Placed} {s : TokenStream}

theorem ofTokens (ts : List Placed) : Stands ts (.ofTokens ts) :=
  ⟨rfl, Nat.zero_le _⟩

theorem perform_eq (h : Stands ts s) (q : Operation) :
    s.perform q = ((q.effect ts s.position).1, ⟨ts, (q.effect ts s.position).2⟩) := by
  obtain ⟨ts', p⟩ := s
  obtain ⟨rfl, hp⟩ := h
  exact perform_mk hp q

/-- Only an operation that goes back to a checkpoint can lead past the end position. -/
theorem perform (h : Stands ts s) {q : Operation}
    (hq : ∀ c, q = .restore c → c.position ≤ endPosition ts) : Stands ts (s.perform q).2 := by
  have hp := h.position_le
  have hnext (n : Nat) : min (s.position + n) (endPosition ts) ≤ endPosition ts :=
    Nat.min_le_right _ _
  rw [h.perform_eq]
  refine ⟨rfl, ?_⟩
  cases q with
  | next => exact hnext 1
  | skip => exact hnext 1
  | skipMany n => exact hnext n
  | skipIf c =>
    dsimp only [Operation.effect]
    split
    · exact hnext 1
    · exact hp
  | expect c =>
    dsimp only [Operation.effect]
    split
    · exact hnext 1
    · exact hp
  | restore c => exact hq c rfl
  | reset => exact Nat.zero_le _
  | _ => exact hp

end Stands

/-! ## Operations one after the other -/

/-- Every checkpoint that is restored was saved from the stream before. -/
def RestoresSaved (s : TokenStream) (ops : List Operation) : Prop :=
  ∀ front c later, ops = front ++ .restore c :: later →
    ∃ before between, front = before ++ .save :: between ∧ c = (s.after before).save

theorem after_append (s : TokenStream) (ops more : List Operation) :
    s.after (ops ++ more) = (s.after ops).after more :=
  List.foldl_append

theorem after_concat (s : TokenStream) (ops : List Operation) (q : Operation) :
    s.after (ops ++ [q]) = ((s.after ops).perform q).2 :=
  after_append s ops [q]

theorem RestoresSaved.of_append {s : TokenStream} {ops more : List Operation}
    (h : s.RestoresSaved (ops ++ more)) : s.RestoresSaved ops := by
  rintro front c later rfl
  exact h front c (later ++ more) (List.append_assoc ..)

/-- Operations that restore only what was saved stay within the end position, from the first one to
the last. -/
theorem stands_after_prefix {ts : List Placed} {ops : List Operation}
    (h : (ofTokens ts).RestoresSaved ops) :
    ∀ front, front <+: ops → Stands ts ((ofTokens ts).after front) := by
  induction ops using List.reverseRecOn with
  | nil =>
    intro front hfront
    rw [List.prefix_nil.mp hfront]
    exact .ofTokens ts
  | append_singleton past q ih =>
    have ih := ih h.of_append
    intro front hfront
    rcases List.prefix_concat_iff.mp hfront with rfl | hfront
    · rw [after_concat]
      refine (ih past (List.prefix_refl past)).perform ?_
      -- a checkpoint is the position that the stream had when it was saved
      rintro c rfl
      obtain ⟨before, between, rfl, rfl⟩ := h past c [] rfl
      exact (ih before (List.prefix_append _ _)).position_le
    · exact ih front hfront

theorem tokens_perform (s : TokenStream) (q : Operation) : (s.perform q).2.tokens = s.tokens := by
  cases q with
  | skipIf c =>
    cases c <;> dsimp only [perform, skipIf, skipIfKind, skipIfText] <;> split <;> rfl
  | expect c =>
    cases c <;> dsimp only [perform, expect, expectKind, expectText] <;> split <;> rfl
  | _ => rfl

theorem tokens_after (s : TokenStream) (ops : List Operation) :
    (s.after ops).tokens = s.tokens := by
  induction ops generalizing s with
  | nil => rfl
  | cons q qs ih => exact (ih _).trans (s.tokens_perform q)

/-- Whatever has been done since, a stream goes back to where its position was saved. -/
theorem restore_after (s : TokenStream) (more : List Operation) :
    (s.after more).restore s.save = s := by
  rw [restore, tokens_after]
  rfl

/-- After any operations that restore only what was saved, a stream stands at most at the end
position. It gives the effect of every next operation at its position, and it comes back there
whatever is done before. -/
theorem clamped_after_operations (ts : List Placed) (ops : List Operation)
    (h : (ofTokens ts).RestoresSaved ops) :
    let s := (ofTokens ts).after ops
    s.position ≤ endPosition ts ∧
      (∀ q : Operation, (s.perform q).1 = (q.effect ts s.position).1 ∧
        (s.perform q).2 = ⟨ts, (q.effect ts s.position).2⟩) ∧
      ∀ more, ((ofTokens ts).after (ops ++ more)).restore s.save = s := by
  have hs := stands_after_prefix h ops (List.prefix_refl ops)
  refine ⟨hs.position_le, fun q => ?_, fun more => ?_⟩
  · rw [hs.perform_eq]
    exact ⟨rfl, rfl⟩
  · rw [after_append]
    exact restore_after _ more

/-- Tokens with an end of input among them and one after them. -/
def twoEnds : List Placed :=
  [⟨⟨.word, "go"⟩, 1⟩, ⟨.endOfInput, 2⟩, ⟨⟨.word, "on"⟩, 3⟩, ⟨.endOfInput, 3⟩]

/-- Read a token, save the position, move far, go to the start and come back. -/
def roundTrip : List Operation :=
  [.next, .save, .skipMany 7, .reset, .restore ⟨1⟩]

theorem restoresSaved_roundTrip : (ofTokens twoEnds).RestoresSaved roundTrip := by
  intro front c later h
  match front with
  | [] | [_] | [_, _] | [_, _, _] => simp [roundTrip] at h
  | [_, _, _, _] =>
    simp only [roundTrip, List.cons_append, List.nil_append, List.cons.injEq,
      Operation.restore.injEq] at h
    obtain ⟨rfl, rfl, rfl, rfl, rfl, -⟩ := h
    exact ⟨[.next], [.skipMany 7, .reset], rfl, rfl⟩
  | _ :: _ :: _ :: _ :: _ :: _ => simp [roundTrip] at h

theorem clamped_after_roundTrip :
    let s := (ofTokens twoEnds).after roundTrip
    (ofTokens twoEnds).RestoresSaved roundTrip ∧ s.position ≤ 1 ∧
      (s.perform .next).1 = .token .endOfInput ∧ (s.perform .next).2.position = 1 ∧
      (s.perform (.expect (.kind .word))).1 =
        .checked (.error (.expected "WORD" .endOfInput 1 2)) ∧
      (((ofTokens twoEnds).after (roundTrip ++ [.reset, .skip])).restore s.save).position = 1 := by
  obtain ⟨hle, heffect, hback⟩ :=
    clamped_after_operations twoEnds roundTrip restoresSaved_roundTrip
  refine ⟨restoresSaved_roundTrip, hle, (heffect .next).1, ?_, (heffect (.expect _)).1, ?_⟩
  · exact congrArg position (heffect .next).2
  · exact congrArg position (hback [.reset, .skip])

end TokenStream

end CommandScript
