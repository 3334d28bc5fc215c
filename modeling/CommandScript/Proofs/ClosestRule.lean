import CommandScript.Proofs.Recovery
import CommandScript.Proofs.Relocation
import CommandScript.Proofs.Requests

/-!
# The closest rule

The error at a place where no rule matches names the rule that got furthest there. How far a rule
gets is a matter of the tokens from its place on: it is the number of its leading elements that fit
them one by one (`fitLength`, `le_fitLength_iff`). The rule that is named is the first of those that
get furthest, and none is named if no rule gets past its first element (`IsClosest`).

An attempt keeps the best miss while it goes through the rules. What carries the induction is that
this miss is the furthest of the rules tried so far (`KeepsBest`); a rule that gets as far as an
earlier one does not replace it. An attempt starts without a miss, so `closest_of_isReported` holds
of every error of every parse, and tokens that come to the same from the place of the error on give
the same name, whatever was matched or skipped before.
-/

namespace CommandScript

variable {ts : List Placed} {p : Nat}

/-! ## How far elements fit -/

/-- The number of leading elements that fit the tokens from `p` on, one by one. -/
def fitLength (ts : List Placed) : Nat → List Element → Nat
  | _, [] => 0
  | p, e :: es => if e.Fits (tokenAt ts p).token then fitLength ts (p + 1) es + 1 else 0

/-- The leading elements that fit are those counted, and no more. -/
theorem le_fitLength_iff {es : List Element} {d : Nat} :
    d ≤ fitLength ts p es ↔ d ≤ es.length ∧ FitFrom ts p (es.take d) := by
  induction es generalizing p d with
  | nil => simp +contextual [fitLength, fitFrom_nil]
  | cons e es ih =>
    cases d with
    | zero => simp [fitFrom_nil]
    | succ d =>
      rw [fitLength, List.take_succ_cons, fitFrom_cons, List.length_cons]
      by_cases he : e.Fits (tokenAt ts p).token
      · simp [he, ih]
      · simp [he]

theorem fitLength_eq_zero_iff {es : List Element} :
    fitLength ts p es = 0 ↔ ∀ e ∈ es.head?, ¬e.Fits (tokenAt ts p).token := by
  cases es with
  | nil => simp [fitLength]
  | cons e es =>
    rw [fitLength, List.head?_cons]
    split <;> simp_all

/-- Elements that fail do so after those that fit. -/
theorem depth_eq_of_missed {es : List Element} {depth d : Nat} {a : Arguments} {el : Element}
    {t : Token} (h : matchElements es depth a (cursorAt ts p) = .missed d el t) :
    d = depth + fitLength ts p es := by
  induction es generalizing p depth a with
  | nil => cases h
  | cons e es ih =>
    have hfits (he : e.Fits (tokenAt ts p).token) :
        fitLength ts p (e :: es) = fitLength ts (p + 1) es + 1 := if_pos he
    have hfails (he : ¬e.Fits (tokenAt ts p).token) : fitLength ts p (e :: es) = 0 := if_neg he
    cases e with
    | keyword text =>
      rw [matchElements, peek_cursorAt, advance_cursorAt] at h
      split at h
      · next ht =>
        have hd := ih h
        rw [hfits ht]
        omega
      · next ht =>
        cases h
        rw [hfails ht, Nat.add_zero]
    | argument name =>
      rw [matchElements, peek_cursorAt, advance_cursorAt] at h
      by_cases ha : (tokenAt ts p).token.IsArgument
      · obtain ⟨v, hv, -⟩ := Token.reading_of_isArgument ha
        rw [hv] at h
        have hd := ih h
        rw [hfits ha]
        omega
      · rw [hfails ha]
        by_cases hb : (tokenAt ts p).token.IsBadNumber
        · rw [Token.reading_of_isBadNumber hb] at h
          cases h
        · rw [Token.reading_of_neither ha hb] at h
          cases h
          rfl

/-! ## The rule that gets furthest -/

/-- How many leading elements of a rule fit the tokens from a position on. -/
def Rule.reachAt (r : Rule) (ts : List Placed) (p : Nat) : Nat :=
  fitLength ts p r.elements

/-- `r` gets past its first element, further than the rules before it, and no rule after it gets
further. -/
def IsFurthest (rules : List Rule) (ts : List Placed) (p : Nat) (r : Rule) : Prop :=
  ∃ earlier later, rules = earlier ++ r :: later ∧ 0 < r.reachAt ts p ∧
    (∀ e ∈ earlier, e.reachAt ts p < r.reachAt ts p) ∧
    ∀ e ∈ later, e.reachAt ts p ≤ r.reachAt ts p

/-- `closest` is the name of the rule that gets furthest, or none if no rule's first element fits
the token at the position. -/
def IsClosest (rules : List Rule) (ts : List Placed) (p : Nat) : Option String → Prop
  | some name => ∃ r, IsFurthest rules ts p r ∧ r.name = name
  | none => ∀ r ∈ rules, ∀ e ∈ r.elements.head?, ¬e.Fits (tokenAt ts p).token

variable {rules : List Rule} {r r' : Rule}

namespace IsFurthest

theorem le (h : IsFurthest rules ts p r) : ∀ e ∈ rules, e.reachAt ts p ≤ r.reachAt ts p := by
  obtain ⟨earlier, later, rfl, -, hearlier, hlater⟩ := h
  intro e he
  rcases List.mem_append.mp he with he | he
  · exact Nat.le_of_lt (hearlier e he)
  · rcases List.mem_cons.mp he with rfl | he
    · exact Nat.le_refl _
    · exact hlater e he

/-- A rule that gets no further may come after the others. -/
theorem snoc_of_le (h : IsFurthest rules ts p r) (hle : r'.reachAt ts p ≤ r.reachAt ts p) :
    IsFurthest (rules ++ [r']) ts p r := by
  obtain ⟨earlier, later, rfl, hpos, hearlier, hlater⟩ := h
  refine ⟨earlier, later ++ [r'], by simp, hpos, hearlier, fun e he => ?_⟩
  rcases List.mem_append.mp he with he | he
  · exact hlater e he
  · exact List.mem_singleton.mp he ▸ hle

/-- A rule that gets further than all others comes after them. -/
theorem snoc_of_lt (hpos : 0 < r'.reachAt ts p)
    (h : ∀ e ∈ rules, e.reachAt ts p < r'.reachAt ts p) : IsFurthest (rules ++ [r']) ts p r' :=
  ⟨rules, [], rfl, hpos, h, fun _ he => absurd he List.not_mem_nil⟩

/-- Only one rule gets furthest. -/
theorem unique (h : IsFurthest rules ts p r) (h' : IsFurthest rules ts p r') : r = r' := by
  have hle := h.le
  have hle' := h'.le
  obtain ⟨earlier, later, rfl, -, hearlier, -⟩ := h
  obtain ⟨earlier', later', hrules, -, hearlier', -⟩ := h'
  have hr' : r'.reachAt ts p ≤ r.reachAt ts p := hle r' (by simp [hrules])
  have hr : r.reachAt ts p ≤ r'.reachAt ts p := hle' r (by simp)
  -- if one of the two came first, the other one would get further than it
  rcases List.append_eq_append_iff.mp hrules with ⟨front, hfront, hback⟩ | ⟨front, hfront, hback⟩
  · cases front with
    | nil => exact (List.cons.inj hback).1
    | cons e front =>
      obtain ⟨rfl, -⟩ := List.cons.inj hback
      exact absurd (hearlier' r (by simp [hfront])) (Nat.not_lt.mpr hr')
  · cases front with
    | nil => exact (List.cons.inj hback).1.symm
    | cons e front =>
      obtain ⟨rfl, -⟩ := List.cons.inj hback
      exact absurd (hearlier r' (by simp [hfront])) (Nat.not_lt.mpr hr)

end IsFurthest

theorem IsClosest.unique {closest closest' : Option String} (h : IsClosest rules ts p closest)
    (h' : IsClosest rules ts p closest') : closest = closest' := by
  -- a rule that gets past its first element is not passed over as one that does not
  have hne {r : Rule} (hnone : IsClosest rules ts p none) : ¬IsFurthest rules ts p r := by
    rintro ⟨earlier, later, rfl, hpos, -⟩
    exact Nat.ne_of_gt hpos (fitLength_eq_zero_iff.mpr (hnone r (by simp)))
  cases closest with
  | none =>
    cases closest' with
    | none => rfl
    | some name' =>
      obtain ⟨r', hr', -⟩ := h'
      exact absurd hr' (hne h)
  | some name =>
    obtain ⟨r, hr, rfl⟩ := h
    cases closest' with
    | none => exact absurd hr (hne h')
    | some name' =>
      obtain ⟨r', hr', rfl⟩ := h'
      rw [hr.unique hr']

/-! ## The best miss of an attempt -/

/-- `best` is the miss of the rule that gets furthest, if any gets past its first element. -/
def KeepsBest (rules : List Rule) (ts : List Placed) (p : Nat) : Option Miss → Prop
  | some m => ∃ r, IsFurthest rules ts p r ∧ m.rule = r.name ∧ m.depth = r.reachAt ts p
  | none => ∀ r ∈ rules, r.reachAt ts p = 0

namespace KeepsBest

variable {best : Option Miss}

theorem isClosest (h : KeepsBest rules ts p best) :
    IsClosest rules ts p (best.map Miss.rule) := by
  cases best with
  | none => exact fun r hr => fitLength_eq_zero_iff.mp (h r hr)
  | some m =>
    obtain ⟨r, hr, hname, -⟩ := h
    exact ⟨r, hr, hname.symm⟩

theorem reachAt_le (h : KeepsBest rules ts p best) :
    ∀ r ∈ rules, r.reachAt ts p ≤ Miss.reach best := by
  cases best with
  | none => exact fun r hr => Nat.le_of_eq (h r hr)
  | some m =>
    obtain ⟨r, hr, -, hdepth⟩ := h
    exact fun r' hr' => Nat.le_trans (hr.le r' hr') (Nat.le_of_eq hdepth.symm)

/-- A rule within reach of the best miss may come after the others. -/
theorem snoc_of_le (h : KeepsBest rules ts p best) (hle : r.reachAt ts p ≤ Miss.reach best) :
    KeepsBest (rules ++ [r]) ts p best := by
  cases best with
  | none =>
    refine List.forall_mem_append.mpr ⟨h, fun r' hr' => ?_⟩
    rw [List.mem_singleton.mp hr']
    exact Nat.le_zero.mp hle
  | some m =>
    obtain ⟨r', hr', hname, hdepth⟩ := h
    exact ⟨r', hr'.snoc_of_le (hdepth ▸ hle), hname, hdepth⟩

/-- One more rule and its miss. -/
theorem snoc (h : KeepsBest rules ts p best) (el : Element) (t : Token) :
    KeepsBest (rules ++ [r]) ts p (Miss.further best ⟨r.name, r.reachAt ts p, el, t⟩) := by
  by_cases hle : r.reachAt ts p ≤ Miss.reach best
  · rw [Miss.further_of_le hle]
    exact h.snoc_of_le hle
  · have hlt := Nat.lt_of_not_le hle
    rw [Miss.further_of_lt hlt]
    have hall : ∀ e ∈ rules, e.reachAt ts p < r.reachAt ts p :=
      fun e he => Nat.lt_of_le_of_lt (h.reachAt_le e he) hlt
    exact ⟨r, .snoc_of_lt (Nat.zero_lt_of_lt hlt) hall, rfl, rfl⟩

end KeepsBest

/-- A rule that fails at a position does so after as many elements as fit from there on. -/
theorem Rule.depth_eq_reachAt {d : Nat} {el : Element} {t : Token}
    (h : r.matchAt (cursorAt ts p) = .missed d el t) : d = r.reachAt ts p := by
  rw [matchAt] at h
  split at h
  · cases h
  · rw [depth_eq_of_missed h, Nat.zero_add]
    rfl

/-- Where rules are passed over one after the other, the best miss of those before and theirs is
the best of them all. -/
theorem KeepsBest.foldl_misses {earlier : List Rule} {best : Option Miss}
    (h : KeepsBest earlier ts p best) (hall : ∀ r ∈ rules, r.PassedAt ts p) :
    KeepsBest (earlier ++ rules) ts p
      ((attempt (cursorAt ts p) rules).misses.foldl Miss.further best) := by
  induction rules generalizing earlier best with
  | nil => rwa [List.append_nil]
  | cons r rs ih =>
    obtain ⟨hr, hrs⟩ := List.forall_mem_cons.mp hall
    rw [List.append_cons, attempt]
    rcases Rule.matchAt_of_passedAt hr with ⟨d, el, t, hm⟩ | hm
    · rw [hm, Rule.depth_eq_reachAt hm]
      exact ih (h.snoc el t) hrs
    · have hzero : r.reachAt ts p = 0 := by
        rw [Rule.reachAt, Rule.matchAt_eq_never_iff.mp hm, fitLength]
      rw [hm]
      exact ih (h.snoc_of_le (hzero ▸ Nat.zero_le _)) hrs

/-- Where no rule matches, an attempt names the rule that gets furthest. -/
theorem isClosest_of_unmatched
    (h : (attempt (cursorAt ts p) rules).outcome = .unmatched) :
    IsClosest rules ts p (Miss.closest (attempt (cursorAt ts p) rules).misses) := by
  have hnone : KeepsBest [] ts p none := fun r hr => absurd hr List.not_mem_nil
  exact (hnone.foldl_misses (passed_of_unmatched h)).isClosest

/-! ## The errors of a run -/

/-- Every error of a run comes from an attempt before the end of input, which the run came to. -/
theorem exists_attempt_of_mem_errors {g : Grammar} {n : Nat} {c : Cursor} {e : ParseError}
    (h : e ∈ (run g n c).errors) :
    ∃ d, c.Reaches d ∧ d.atEnd = false ∧
      ((attempt d g.rules).outcome = .unmatched ∧ e = noRuleAt d (attempt d g.rules).misses ∨
        ∃ d', (attempt d g.rules).outcome = .malformed d' ∧ e = malformedAt d') := by
  induction n, c using run_induction (g := g) with
  | atEnd n c hc =>
    rw [run_of_atEnd hc] at h
    cases h
  | matched n c a d hc ho ih =>
    have hreach := reaches_attempt c g.rules
    rw [run_of_matched hc ho] at h
    rw [ho] at hreach
    obtain ⟨place, hplace, hattempt⟩ := ih h
    exact ⟨place, hreach.trans hplace, hattempt⟩
  | malformed n c d hc ho =>
    rw [run_of_malformed hc ho] at h
    exact ⟨c, .refl c, hc, Or.inr ⟨d, ho, List.mem_singleton.mp h⟩⟩
  | stopped n c hc ho hn =>
    rw [run_of_unmatched_of_le hc ho hn] at h
    exact ⟨c, .refl c, hc, Or.inl ⟨ho, List.mem_singleton.mp h⟩⟩
  | skipped n c hc ho hn ih =>
    rw [run_of_unmatched hc ho hn, Run.errors_cons] at h
    rcases List.mem_append.mp h with h | h
    · exact ⟨c, .refl c, hc, Or.inl ⟨ho, List.mem_singleton.mp h⟩⟩
    · obtain ⟨place, hplace, hattempt⟩ := ih h
      exact ⟨place, .move hplace, hattempt⟩

/-- An error that some parse of the tokens reports: a strict one fails with it, or a recovering one
with some limit records it, be it at the start of the tokens or by a parser that was asked for
something before. -/
def IsReported (g : Grammar) (ts : List Placed) (e : ParseError) : Prop :=
  parse g ts = .error e ∨ (∃ n, e ∈ (parseRecovering g n ts).2) ∨
    ∃ past, ((Parser.ofTokens g ts).afterRequests past).parseBlock.result = .error e ∨
      ∃ n, e ∈ (((Parser.ofTokens g ts).afterRequests past).parseBlockRecovering n).result.2

variable {g : Grammar} {e : ParseError} {found : Token} {line : Nat} {closest : Option String}

theorem mem_errors_run_one {c : Cursor} (h : (strictRun g c).result = .error e) :
    e ∈ (run g 1 c).errors := by
  rw [strictRun_eq_run_one, Run.result_eq_error_iff] at h
  exact List.mem_of_head? h

/-- An error that is reported is one of a recovering run, from some position on. -/
theorem IsReported.exists_run (h : IsReported g ts e) :
    ∃ n q, e ∈ (run g n (cursorAt ts q)).errors := by
  have hstart : cursorAt ts 0 = ⟨0, ts⟩ := cursorAt_zero ts
  rcases h with h | ⟨n, h⟩ | ⟨past, h⟩
  · exact ⟨1, 0, hstart ▸ mem_errors_run_one h⟩
  · exact ⟨n, 0, hstart ▸ h⟩
  · have hp := (Parser.Stands.ofTokens g ts).afterRequests past
    rcases h with h | ⟨n, h⟩
    · rw [(Parser.gives_parseBlock _).result, hp.grammar, hp.cursor_eq] at h
      exact ⟨1, _, mem_errors_run_one h⟩
    · rw [(Parser.gives_parseBlockRecovering _ n).result, hp.grammar, hp.cursor_eq] at h
      exact ⟨n, _, h⟩

/-- An error that no rule matches comes from the attempt at its place. -/
theorem IsReported.unmatched (h : IsReported g ts (.noRule found p line closest)) :
    p < endPosition ts ∧ (attempt (cursorAt ts p) g.rules).outcome = .unmatched ∧
      closest = Miss.closest (attempt (cursorAt ts p) g.rules).misses := by
  obtain ⟨n, start, hmem⟩ := h.exists_run
  obtain ⟨d, hreach, hend, ⟨ho, he⟩ | ⟨d', -, he⟩⟩ := exists_attempt_of_mem_errors hmem
  · obtain ⟨k, rfl⟩ := exists_eq_cursorAt_of_reaches ts hreach start rfl
    have hlt : start + k < endPosition ts :=
      Nat.lt_of_not_le fun hle => by simp [(atEnd_cursorAt_iff ts _).mpr hle] at hend
    rw [noRuleAt_cursorAt hlt] at he
    cases he
    exact ⟨hlt, ho, rfl⟩
  · cases he

/-- The rule that an error names as the closest one is the rule that gets furthest at its position.
It is determined by the rules and by the tokens from there on: an error of another parse, of any
other tokens that come to the same from its position on, names the same rule. -/
theorem closest_of_isReported (h : IsReported g ts (.noRule found p line closest)) :
    (∀ c, IsClosest g.rules ts p c ↔ c = closest) ∧
      ∀ ts' found' p' line' closest', IsReported g ts' (.noRule found' p' line' closest') →
        ts'.drop p' = ts.drop p → closest' = closest := by
  obtain ⟨hp, ho, rfl⟩ := h.unmatched
  have hclosest := isClosest_of_unmatched ho
  refine ⟨fun c => ⟨fun hc => hc.unique hclosest, fun hc => hc ▸ hclosest⟩, ?_⟩
  intro ts' found' p' line' closest' h' hdrop
  obtain ⟨hp', -, rfl⟩ := h'.unmatched
  -- an attempt sees no more than the tokens from its place on, counted from there
  have hmisses {ts : List Placed} {p : Nat} (hp : p < endPosition ts) :
      (attempt (cursorAt ts p) g.rules).misses = (attempt ⟨0, ts.drop p⟩ g.rules).misses := by
    have hcursor : cursorAt ts p = Cursor.shift p ⟨0, ts.drop p⟩ := by
      rw [cursorAt, Nat.min_eq_left (Nat.le_of_lt hp), Cursor.shift, Nat.zero_add]
    have hend : Cursor.atEnd ⟨0, ts.drop p⟩ = false := by
      have hend := atEnd_cursorAt_of_lt hp
      rwa [hcursor] at hend
    rw [hcursor, attempt_relocated (isRelocation_shift p) hend]
  rw [hmisses hp, hmisses hp', hdrop]

/-- Two rules that start with the same two elements, and one that starts otherwise. -/
def takeRules : Grammar :=
  ⟨[⟨"rest", [.keyword "rest"]⟩,
    ⟨"takeFrom", [.keyword "take", .argument "what", .keyword "from", .argument "where"]⟩,
    ⟨"takeTo", [.keyword "take", .argument "what", .keyword "to", .argument "whom"]⟩]⟩

/-- Words of which the first is an action, and the second the start of none. -/
def restTake : List Placed :=
  [⟨⟨.word, "rest"⟩, 1⟩, ⟨⟨.word, "take"⟩, 1⟩, ⟨⟨.word, "key"⟩, 1⟩, ⟨⟨.word, "by"⟩, 1⟩]

/-- The error at the second word. -/
def takeError : ParseError :=
  .noRule ⟨.word, "take"⟩ 1 1 (some "takeFrom")

theorem isReported_takeError : IsReported takeRules restTake takeError :=
  Or.inr (Or.inl ⟨3, by decide +kernel⟩)

theorem closest_takeError :
    IsReported takeRules restTake takeError ∧
      (∀ c, IsClosest takeRules.rules restTake 1 c ↔ c = some "takeFrom") ∧
      ∀ ts' found' p' line' closest',
        IsReported takeRules ts' (.noRule found' p' line' closest') →
        ts'.drop p' = restTake.drop 1 → closest' = some "takeFrom" :=
  ⟨isReported_takeError, closest_of_isReported isReported_takeError⟩

end CommandScript
