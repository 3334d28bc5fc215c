import CommandScript.Proofs.Choice
import CommandScript.Run

/-!
# Strict reading

A strict parse succeeds exactly on the token sequences that have a reading (`IsReading`): rules
taken one after the other, the first one at position 0, each of the others where the one before
has used its tokens up, the last one reaching the end position. The block holds the actions of
these rules in order (`parse_eq_ok_iff_isReading`). Nothing in the definition of a reading tries a
rule and goes back.
-/

namespace CommandScript

/-- A reading of the tokens from position `p` to the end: `n` rules, of which the one numbered
`i` is taken at `pos i`. -/
structure IsReading (g : Grammar) (ts : List Placed) (p n : Nat) (pos : Nat → Nat)
    (rule : Nat → Rule) : Prop where
  /-- The first rule is taken at `p`. -/
  start : pos 0 = p
  /-- The last rule reaches the end position. -/
  stop : pos n = endPosition ts
  /-- Each rule uses up at least one token. -/
  lt : ∀ i < n, pos i < pos (i + 1)
  /-- The rule at a position is the first that matches there, and none before it stumbles. -/
  taken : ∀ i < n, TakenAt g.rules ts (pos i) (rule i)
  /-- A rule uses up one token for each of its elements, but none past the end position. -/
  next : ∀ i < n, pos (i + 1) = min (pos i + (rule i).elements.length) (endPosition ts)

/-- The actions of `n` rules at their positions. -/
def actionsOf (ts : List Placed) (n : Nat) (pos : Nat → Nat) (rule : Nat → Rule) :
    List Action :=
  (List.range n).map fun i => (rule i).actionAt ts (pos i)

/-- A sequence with one more term before it. -/
def before {α : Type} (x : α) (f : Nat → α) : Nat → α
  | 0 => x
  | i + 1 => f i

variable {g : Grammar} {ts : List Placed} {p n : Nat} {pos : Nat → Nat} {rule : Nat → Rule}

theorem actionsOf_succ (ts : List Placed) (n : Nat) (pos : Nat → Nat) (rule : Nat → Rule) :
    actionsOf ts (n + 1) pos rule = (rule 0).actionAt ts (pos 0) ::
      actionsOf ts n (fun i => pos (i + 1)) (fun i => rule (i + 1)) := by
  simp [actionsOf, List.range_succ_eq_map]

namespace IsReading

/-- What is left of a reading after its first rule. -/
theorem tail (h : IsReading g ts p (n + 1) pos rule) :
    IsReading g ts (pos 1) n (fun i => pos (i + 1)) (fun i => rule (i + 1)) where
  start := rfl
  stop := h.stop
  lt i hi := h.lt (i + 1) (Nat.succ_lt_succ hi)
  taken i hi := h.taken (i + 1) (Nat.succ_lt_succ hi)
  next i hi := h.next (i + 1) (Nat.succ_lt_succ hi)

/-- A rule that is taken, and a reading from where it has used its tokens up. -/
theorem cons {r : Rule} (hp : p < endPosition ts) (hr : TakenAt g.rules ts p r)
    (h : IsReading g ts (min (p + r.elements.length) (endPosition ts)) n pos rule) :
    IsReading g ts p (n + 1) (before p pos) (before r rule) where
  start := rfl
  stop := h.stop
  lt i hi := by
    cases i with
    | zero =>
      have hlen := hr.length_pos
      have h0 : pos 0 = min (p + r.elements.length) (endPosition ts) := h.start
      change p < pos 0
      omega
    | succ i => exact h.lt i (Nat.lt_of_succ_lt_succ hi)
  taken i hi := by
    cases i with
    | zero => exact hr
    | succ i => exact h.taken i (Nat.lt_of_succ_lt_succ hi)
  next i hi := by
    cases i with
    | zero => exact h.start
    | succ i => exact h.next i (Nat.lt_of_succ_lt_succ hi)

end IsReading

/-! ## Strict runs at a position -/

theorem strictRun_of_takenAt {r : Rule} (hp : p < endPosition ts)
    (h : TakenAt g.rules ts p r) :
    strictRun g (cursorAt ts p) = (strictRun g (cursorAt ts (p + r.elements.length))).cons
      (.matched (attempt (cursorAt ts p) g.rules).misses (r.actionAt ts p)) := by
  rw [strictRun_of_not_atEnd (atEnd_cursorAt_of_lt hp), outcome_of_takenAt h]

/-- A strict run without an error starts with a rule that is taken. -/
theorem exists_takenAt_of_errors_eq_nil (hp : p < endPosition ts)
    (h : (strictRun g (cursorAt ts p)).errors = []) : ∃ r, TakenAt g.rules ts p r := by
  rw [strictRun_of_not_atEnd (atEnd_cursorAt_of_lt hp)] at h
  rcases taken_or_blocked_or_passed g.rules ts p with ht | ⟨j, hb⟩ | hall
  · exact ht
  · rw [outcome_of_blockedAt hb] at h
    cases h
  · rw [outcome_of_passed hall] at h
    cases h

/-- A strict run follows a reading, without an error. -/
theorem strictRun_of_isReading (h : IsReading g ts p n pos rule) :
    (strictRun g (cursorAt ts p)).errors = [] ∧
      (strictRun g (cursorAt ts p)).block.actions = actionsOf ts n pos rule := by
  induction n generalizing p pos rule with
  | zero =>
    have hp : endPosition ts ≤ p := Nat.le_of_eq (h.stop.symm.trans h.start)
    rw [strictRun_of_atEnd ((atEnd_cursorAt_iff ts p).mpr hp)]
    exact ⟨rfl, rfl⟩
  | succ n ih =>
    have h0 := h.start
    have hnext := h.next 0 (Nat.succ_pos n)
    have htaken := h.taken 0 (Nat.succ_pos n)
    have hp : p < endPosition ts := by
      have hlt := h.lt 0 (Nat.succ_pos n)
      omega
    obtain ⟨herrors, hactions⟩ := ih h.tail
    rw [h0] at hnext htaken
    rw [hnext, cursorAt_min] at herrors hactions
    rw [strictRun_of_takenAt hp htaken, Run.errors_cons, Run.actions_block_cons, actionsOf_succ,
      h0, herrors, hactions]
    exact ⟨rfl, rfl⟩

/-- A strict run without an error follows a reading. -/
theorem exists_isReading (hp : p ≤ endPosition ts)
    (h : (strictRun g (cursorAt ts p)).errors = []) :
    ∃ n pos rule, IsReading g ts p n pos rule := by
  induction hd : endPosition ts - p using Nat.strongRecOn generalizing p with
  | ind d ih =>
    rcases Nat.eq_or_lt_of_le hp with rfl | hlt
    · exact ⟨0, fun _ => endPosition ts, fun _ => .named "", rfl, rfl, by simp, by simp, by simp⟩
    · obtain ⟨r, hr⟩ := exists_takenAt_of_errors_eq_nil hlt h
      have hlen := hr.length_pos
      have hrest : (strictRun g (cursorAt ts
          (min (p + r.elements.length) (endPosition ts)))).errors = [] := by
        rw [strictRun_of_takenAt hlt hr, Run.errors_cons] at h
        rw [cursorAt_min]
        exact h
      obtain ⟨n, pos, rule, hread⟩ := ih _ (by omega) (Nat.min_le_right _ _) hrest rfl
      exact ⟨n + 1, before p pos, before r rule, hread.cons hlt hr⟩

/-- A strict parse that gives a block has read the tokens. -/
theorem exists_isReading_of_ok {g : Grammar} {ts : List Placed} {b : Block}
    (h : parse g ts = .ok b) :
    ∃ n pos rule, IsReading g ts 0 n pos rule ∧ b.actions = actionsOf ts n pos rule := by
  rw [parse, Run.result_eq_ok_iff, ← cursorAt_zero] at h
  obtain ⟨herrors, rfl⟩ := h
  obtain ⟨n, pos, rule, hread⟩ := exists_isReading (Nat.zero_le _) herrors
  exact ⟨n, pos, rule, hread, (strictRun_of_isReading hread).2⟩

/-- A strict parse gives a block exactly if the tokens have a reading from position 0 on, and the
block then holds the actions of the rules of that reading. -/
theorem parse_eq_ok_iff_isReading (g : Grammar) (ts : List Placed) (b : Block) :
    parse g ts = .ok b ↔
      ∃ n pos rule, IsReading g ts 0 n pos rule ∧ b.actions = actionsOf ts n pos rule := by
  rw [parse, Run.result_eq_ok_iff, ← cursorAt_zero]
  constructor
  · rintro ⟨herrors, rfl⟩
    obtain ⟨n, pos, rule, h⟩ := exists_isReading (Nat.zero_le _) herrors
    exact ⟨n, pos, rule, h, (strictRun_of_isReading h).2⟩
  · rintro ⟨n, pos, rule, h, hb⟩
    obtain ⟨herrors, hactions⟩ := strictRun_of_isReading h
    refine ⟨herrors, ?_⟩
    obtain ⟨actions⟩ := b
    rw [← hb] at hactions
    exact congrArg Block.mk hactions

end CommandScript
