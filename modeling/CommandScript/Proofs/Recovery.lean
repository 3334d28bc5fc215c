import CommandScript.Proofs.Choice
import CommandScript.Run

/-!
# Recovering reading

A recovering run deals with the tokens in stretches (`Stretch`). A rule that is taken uses up a
stretch of them, an error skips one. The stretches follow each other without a gap and without
an overlap (`Tiles`), and they say in order what the run gives: its actions and its errors, but
for a malformed number, which ends the run and belongs to no stretch (`IsTiling`). Every
recovering run has such a tiling (`parseRecovering_tiles`).
-/

namespace CommandScript

/-- A stretch of tokens that a recovering run has dealt with. -/
inductive Stretch
  /-- The tokens from `start` on that a rule used up. -/
  | taken (start : Nat) (rule : Rule)
  /-- The token at `start`, which was skipped with an error that names `closest`. -/
  | skipped (start : Nat) (closest : Option String)

namespace Stretch

/-- The position of the first token of a stretch. -/
def start : Stretch → Nat
  | taken p _ => p
  | skipped p _ => p

/-- The number of tokens of a stretch. A rule uses up one for each of its elements, but none past
the end position. -/
def length (ts : List Placed) : Stretch → Nat
  | taken p r => min r.elements.length (endPosition ts - p)
  | skipped _ _ => 1

/-- What a run gives for a stretch: the action of the rule, or an error with the token that was
skipped and its line. -/
def event (ts : List Placed) : Stretch → Action ⊕ ParseError
  | taken p r => .inl (r.actionAt ts p)
  | skipped p closest => .inr (.noRule (tokenAt ts p).token p (tokenAt ts p).line closest)

/-- The actions that a run gives for stretches. -/
def actions (ts : List Placed) (ss : List Stretch) : List Action :=
  (ss.map (event ts)).filterMap Sum.getLeft?

/-- The errors that a run gives for stretches. -/
def errors (ts : List Placed) (ss : List Stretch) : List ParseError :=
  (ss.map (event ts)).filterMap Sum.getRight?

/-- A rule that used up a stretch was taken there, and where a token was skipped no rule of the
grammar matches or stumbles. -/
def IsJustified (g : Grammar) (ts : List Placed) : Stretch → Prop
  | taken p r => TakenAt g.rules ts p r
  | skipped p _ => ∀ r ∈ g.rules, r.PassedAt ts p

end Stretch

/-- What a step of a run gives. -/
def Step.event : Step → Action ⊕ ParseError
  | matched _ a => .inl a
  | unmatched _ e => .inr e
  | malformed _ e => .inr e

/-- Stretches that follow each other from position `p` to position `q`, each with its first token
before the end position. -/
def Tiles (ts : List Placed) : Nat → List Stretch → Nat → Prop
  | p, [], q => p = q
  | p, s :: ss, q => s.start = p ∧ p < endPosition ts ∧ Tiles ts (p + s.length ts) ss q

/-- Whether errors are as many as a run may record. The first one may always be recorded. -/
def LimitReached (limit : Nat) (errors : List ParseError) : Prop :=
  errors ≠ [] ∧ limit ≤ errors.length

/-- The stretches of a recovering run that starts at position `p`. They end at `stop`, and `fatal`
is the error of the malformed number that ended the run, if one did. -/
structure IsTiling (g : Grammar) (ts : List Placed) (limit p : Nat) (r : Run)
    (stretches : List Stretch) (stop : Nat) (fatal : Option ParseError) : Prop where
  /-- The run gives one action or error for each stretch, in this order, and the fatal error
  last. -/
  order : r.steps.map Step.event =
    stretches.map (Stretch.event ts) ++ fatal.toList.map Sum.inr
  /-- The stretches cover the tokens from `p` to `stop`, each of them once. -/
  tiles : Tiles ts p stretches stop
  /-- The rules of the grammar ask for each of the stretches. -/
  justified : ∀ s ∈ stretches, s.IsJustified g ts
  /-- A fatal error points at a bad number that is in no stretch. -/
  fatal_at : ∀ e ∈ fatal, ∃ q, stop ≤ q ∧ q < endPosition ts ∧
    (tokenAt ts q).token.IsBadNumber ∧
    e = .invalidNumber (tokenAt ts q).token.text q (tokenAt ts q).line
  /-- A run that was not stopped covers all tokens. -/
  whole : fatal = none → ¬LimitReached limit r.errors → stop = endPosition ts
  /-- A run that was stopped by its limit ends with the token of its last error. -/
  last : fatal = none → LimitReached limit r.errors →
    ∃ front q closest, stretches = front ++ [.skipped q closest]

variable {g : Grammar} {ts : List Placed} {limit p q : Nat} {ss : List Stretch}

/-! ## Stretches in a row -/

theorem Stretch.errors_taken (ts : List Placed) (p : Nat) (r : Rule) (ss : List Stretch) :
    errors ts (.taken p r :: ss) = errors ts ss :=
  rfl

theorem Stretch.errors_skipped (ts : List Placed) (p : Nat) (closest : Option String)
    (ss : List Stretch) : errors ts (.skipped p closest :: ss) =
      .noRule (tokenAt ts p).token p (tokenAt ts p).line closest :: errors ts ss :=
  rfl

namespace Tiles

theorem le (h : Tiles ts p ss q) : p ≤ q := by
  induction ss generalizing p with
  | nil => exact Nat.le_of_eq h
  | cons s ss ih =>
    have hle := ih h.2.2
    omega

theorem le_endPosition (h : Tiles ts p ss q) (hp : p ≤ endPosition ts) :
    q ≤ endPosition ts := by
  induction ss generalizing p with
  | nil => exact h ▸ hp
  | cons s ss ih =>
    obtain ⟨rfl, hlt, hss⟩ := h
    refine ih hss ?_
    cases s with
    | taken start r =>
      simp only [Stretch.start, Stretch.length] at hlt ⊢
      omega
    | skipped start closest => exact hlt

/-- The errors of stretches lie between the two ends and before the end position, and their
positions increase. -/
theorem errors_increase (h : Tiles ts p ss q) :
    (∀ e ∈ Stretch.errors ts ss, p ≤ e.position ∧ e.position < q ∧ e.position < endPosition ts) ∧
      (Stretch.errors ts ss).Pairwise (fun e e' => e.position < e'.position) := by
  induction ss generalizing p with
  | nil => exact ⟨by simp [Stretch.errors], List.Pairwise.nil⟩
  | cons s ss ih =>
    obtain ⟨rfl, hlt, hss⟩ := h
    obtain ⟨hbounds, hpair⟩ := ih hss
    cases s with
    | taken start r =>
      rw [Stretch.errors_taken]
      refine ⟨fun e he => ?_, hpair⟩
      obtain ⟨hp, hq, hend⟩ := hbounds e he
      exact ⟨Nat.le_of_add_right_le hp, hq, hend⟩
    | skipped start closest =>
      have hq := hss.le
      simp only [Stretch.start, Stretch.length] at hq hlt hbounds ⊢
      rw [Stretch.errors_skipped, List.forall_mem_cons, List.pairwise_cons]
      refine ⟨⟨⟨Nat.le_refl _, hq, hlt⟩, fun e he => ?_⟩, fun e he => (hbounds e he).1, hpair⟩
      obtain ⟨hp, hq, hend⟩ := hbounds e he
      exact ⟨Nat.le_of_succ_le hp, hq, hend⟩

end Tiles

/-! ## One place of a recovering run -/

/-- The error at a position where no rule matches. -/
theorem noRuleAt_cursorAt (hp : p < endPosition ts) (misses : List Miss) :
    noRuleAt (cursorAt ts p) misses =
      .noRule (tokenAt ts p).token p (tokenAt ts p).line (Miss.closest misses) := by
  rw [noRuleAt, peek_cursorAt, line_cursorAt, position_cursorAt, Nat.min_eq_left (Nat.le_of_lt hp)]

/-- The error at the position of a malformed number. -/
theorem malformedAt_cursorAt (hp : p < endPosition ts) :
    malformedAt (cursorAt ts p) =
      .invalidNumber (tokenAt ts p).token.text p (tokenAt ts p).line := by
  rw [malformedAt, peek_cursorAt, line_cursorAt, position_cursorAt,
    Nat.min_eq_left (Nat.le_of_lt hp)]

theorem LimitReached.cons_iff {limit : Nat} {e : ParseError} {es : List ParseError}
    (hlimit : ¬limit ≤ 1) : LimitReached limit (e :: es) ↔ LimitReached (limit - 1) es := by
  cases es with
  | nil => simp [LimitReached, hlimit]
  | cons e' es =>
    simp only [LimitReached, List.length_cons, ne_eq, reduceCtorEq, not_false_eq_true, true_and]
    omega

namespace IsTiling

variable {r : Run} {fatal : Option ParseError} {misses : List Miss}

/-- At the end position a run is over. -/
theorem atEnd : IsTiling g ts limit (endPosition ts) ⟨[], cursorAt ts (endPosition ts)⟩ []
    (endPosition ts) none where
  order := rfl
  tiles := rfl
  justified s hs := absurd hs List.not_mem_nil
  fatal_at e he := by cases he
  whole _ _ := rfl
  last _ hlimit := absurd rfl hlimit.1

/-- A rule that is taken, and a run from where it has used its tokens up. -/
theorem taken {rule : Rule} (hp : p < endPosition ts) (hr : TakenAt g.rules ts p rule)
    (h : IsTiling g ts limit (min (p + rule.elements.length) (endPosition ts)) r ss q fatal) :
    IsTiling g ts limit p (r.cons (.matched misses (rule.actionAt ts p)))
      (.taken p rule :: ss) q fatal where
  order := congrArg (Sum.inl (rule.actionAt ts p) :: ·) h.order
  tiles := by
    have hlen : p + (Stretch.taken p rule).length ts =
        min (p + rule.elements.length) (endPosition ts) := by
      rw [Stretch.length]
      omega
    refine ⟨rfl, hp, ?_⟩
    rw [hlen]
    exact h.tiles
  justified := List.forall_mem_cons.mpr ⟨hr, h.justified⟩
  fatal_at := h.fatal_at
  whole := h.whole
  last hf hlimit := by
    obtain ⟨front, q', closest, rfl⟩ := h.last hf hlimit
    exact ⟨_ :: front, q', closest, rfl⟩

/-- A token that is skipped, and a run from the next one, which may record one error less. -/
theorem skipped {closest : Option String} {e : ParseError} (hp : p < endPosition ts)
    (hr : ∀ rule ∈ g.rules, rule.PassedAt ts p) (hlimit : ¬limit ≤ 1)
    (he : e = .noRule (tokenAt ts p).token p (tokenAt ts p).line closest)
    (h : IsTiling g ts (limit - 1) (p + 1) r ss q fatal) :
    IsTiling g ts limit p (r.cons (.unmatched misses e)) (.skipped p closest :: ss) q fatal where
  order := by
    rw [he]
    exact congrArg (Sum.inr _ :: ·) h.order
  tiles := ⟨rfl, hp, h.tiles⟩
  justified := List.forall_mem_cons.mpr ⟨hr, h.justified⟩
  fatal_at := h.fatal_at
  whole hf hreached := by
    rw [Run.errors_cons] at hreached
    exact h.whole hf fun hrest => hreached ((LimitReached.cons_iff hlimit).mpr hrest)
  last hf hreached := by
    rw [Run.errors_cons] at hreached
    obtain ⟨front, q', closest', rfl⟩ := h.last hf ((LimitReached.cons_iff hlimit).mp hreached)
    exact ⟨_ :: front, q', closest', rfl⟩

/-- The last token that a run may skip. -/
theorem skipped_last {closest : Option String} {e : ParseError} {c : Cursor}
    (hp : p < endPosition ts) (hr : ∀ rule ∈ g.rules, rule.PassedAt ts p) (hlimit : limit ≤ 1)
    (he : e = .noRule (tokenAt ts p).token p (tokenAt ts p).line closest) :
    IsTiling g ts limit p ⟨[.unmatched misses e], c⟩ [.skipped p closest] (p + 1) none where
  order := by
    rw [he]
    rfl
  tiles := ⟨rfl, hp, rfl⟩
  justified := List.forall_mem_cons.mpr ⟨hr, fun s hs => absurd hs List.not_mem_nil⟩
  fatal_at e he := by cases he
  whole _ hreached := absurd ⟨by simp [Run.errors, Step.error?], hlimit⟩ hreached
  last _ _ := ⟨[], p, closest, rfl⟩

/-- A malformed number ends a run. -/
theorem blocked {j : Nat} {c : Cursor} (h : BlockedAt g.rules ts p j) :
    IsTiling g ts limit p ⟨[.malformed misses (malformedAt (cursorAt ts (p + j)))], c⟩ [] p
      (some (malformedAt (cursorAt ts (p + j)))) where
  order := rfl
  tiles := rfl
  justified s hs := absurd hs List.not_mem_nil
  fatal_at e he := by
    obtain ⟨hlt, hbad⟩ := h.isBadNumber
    refine ⟨p + j, Nat.le_add_right p j, hlt, hbad, ?_⟩
    rw [← Option.mem_some.mp he, malformedAt_cursorAt hlt]
  whole hf := by cases hf
  last hf := by cases hf

end IsTiling

/-- Every recovering run has a tiling, from wherever it starts. -/
theorem exists_isTiling (g : Grammar) (ts : List Placed) (limit p : Nat)
    (hp : p ≤ endPosition ts) :
    ∃ ss q fatal, IsTiling g ts limit p (run g limit (cursorAt ts p)) ss q fatal := by
  induction hd : endPosition ts - p using Nat.strongRecOn generalizing p limit with
  | ind d ih =>
    rcases Nat.eq_or_lt_of_le hp with rfl | hlt
    · rw [run_of_atEnd ((atEnd_cursorAt_iff ts _).mpr (Nat.le_refl _))]
      exact ⟨[], endPosition ts, none, .atEnd⟩
    have hend := atEnd_cursorAt_of_lt hlt
    rcases taken_or_blocked_or_passed g.rules ts p with ⟨r, hr⟩ | ⟨j, hj⟩ | hall
    · have hlen := hr.length_pos
      obtain ⟨ss, q, fatal, h⟩ := ih _ (by omega) limit (min (p + r.elements.length)
        (endPosition ts)) (Nat.min_le_right _ _) rfl
      rw [run_of_matched hend (outcome_of_takenAt hr)]
      rw [cursorAt_min] at h
      exact ⟨_, q, fatal, h.taken hlt hr⟩
    · rw [run_of_malformed hend (outcome_of_blockedAt hj)]
      exact ⟨[], p, _, .blocked hj⟩
    · have ho := outcome_of_passed hall
      have he := noRuleAt_cursorAt hlt (attempt (cursorAt ts p) g.rules).misses
      by_cases hlimit : limit ≤ 1
      · rw [run_of_unmatched_of_le hend ho hlimit]
        exact ⟨_, p + 1, none, .skipped_last hlt hall hlimit he⟩
      · obtain ⟨ss, q, fatal, h⟩ := ih _ (by omega) (limit - 1) (p + 1) hlt rfl
        rw [run_of_unmatched hend ho hlimit, advance_cursorAt]
        exact ⟨_, q, fatal, h.skipped hlt hall hlimit he⟩

theorem exists_isTiling_run (g : Grammar) (ts : List Placed) (limit : Nat) :
    ∃ ss q fatal, IsTiling g ts limit 0 (run g limit ⟨0, ts⟩) ss q fatal := by
  have h := exists_isTiling g ts limit 0 (Nat.zero_le _)
  rwa [cursorAt_zero] at h

/-! ## What the stretches say of a run -/

theorem Run.actions_eq_events (r : Run) :
    r.block.actions = (r.steps.map Step.event).filterMap Sum.getLeft? := by
  have hevent : Sum.getLeft? ∘ Step.event = Step.action? := by
    funext s
    cases s <;> rfl
  rw [List.filterMap_map, hevent, block]

theorem Run.errors_eq_events (r : Run) :
    r.errors = (r.steps.map Step.event).filterMap Sum.getRight? := by
  have hevent : Sum.getRight? ∘ Step.event = Step.error? := by
    funext s
    cases s <;> rfl
  rw [List.filterMap_map, hevent, errors]

namespace IsTiling

variable {r : Run} {fatal : Option ParseError}

theorem actions_eq (h : IsTiling g ts limit p r ss q fatal) :
    r.block.actions = Stretch.actions ts ss := by
  rw [Run.actions_eq_events, h.order, List.filterMap_append]
  cases fatal <;> simp [Stretch.actions]

theorem errors_eq (h : IsTiling g ts limit p r ss q fatal) :
    r.errors = Stretch.errors ts ss ++ fatal.toList := by
  rw [Run.errors_eq_events, h.order, List.filterMap_append]
  cases fatal <;> simp [Stretch.errors]

/-- The errors of a run stand before the end position, and their positions increase. -/
theorem errors_increase (h : IsTiling g ts limit p r ss q fatal) :
    (∀ e ∈ r.errors, e.position < endPosition ts) ∧
      r.errors.Pairwise (fun e e' => e.position < e'.position) := by
  obtain ⟨hbounds, hpair⟩ := h.tiles.errors_increase
  rw [h.errors_eq]
  cases fatal with
  | none =>
    rw [Option.toList_none, List.append_nil]
    exact ⟨fun e he => (hbounds e he).2.2, hpair⟩
  | some e' =>
    obtain ⟨q', hq, hlt, -, rfl⟩ := h.fatal_at e' rfl
    rw [Option.toList_some, List.pairwise_append]
    refine ⟨fun e he => ?_, hpair, List.pairwise_singleton _ _, fun e he e' he' => ?_⟩
    · rcases List.mem_append.mp he with he | he
      · exact (hbounds e he).2.2
      · rw [List.mem_singleton.mp he]
        exact hlt
    · rw [List.mem_singleton.mp he']
      exact Nat.lt_of_lt_of_le (hbounds e he).2.1 hq

end IsTiling

/-- A recovering parse loses no token and takes none twice: its run has a tiling from position 0 on
that stays before the end position, the block holds the actions of the stretches, and the errors
are those of the stretches, at increasing positions, and the fatal error if there is one. -/
theorem parseRecovering_tiles (g : Grammar) (limit : Nat) (ts : List Placed) :
    ∃ ss stop fatal, IsTiling g ts limit 0 (run g limit ⟨0, ts⟩) ss stop fatal ∧
      stop ≤ endPosition ts ∧
      (parseRecovering g limit ts).1.actions = Stretch.actions ts ss ∧
      (parseRecovering g limit ts).2 = Stretch.errors ts ss ++ fatal.toList ∧
      (∀ e ∈ (parseRecovering g limit ts).2, e.position < endPosition ts) ∧
      (parseRecovering g limit ts).2.Pairwise (fun e e' => e.position < e'.position) := by
  obtain ⟨ss, stop, fatal, h⟩ := exists_isTiling g ts limit 0 (Nat.zero_le _)
  rw [cursorAt_zero] at h
  obtain ⟨hbounds, hpair⟩ := h.errors_increase
  exact ⟨ss, stop, fatal, h, h.tiles.le_endPosition (Nat.zero_le _), h.actions_eq, h.errors_eq,
    hbounds, hpair⟩

end CommandScript
