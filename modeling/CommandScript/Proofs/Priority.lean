import CommandScript.Proofs.SameChoices

/-!
# The priority of rules

The order of the rules decides which of them is taken, but not all of it matters.

Rules that come after all others (`Grammar.pushAll`) are tried only where none of the others
matches. A parse that fails nowhere for that reason never comes to them, so it is as it was
(`strictRun_pushAll`, `parse_pushAll`).

Rules that start with keywords of different texts (`Rule.IsApart`) never compete. At any token, the
one whose keyword has another text fails at its first element, and such a miss leaves no trace. So
an attempt is decided by the rules that contend for the token (`attempt_filter_contends`), and no
two of these are apart. If the rules change their order but for two that are not apart
(`IsReordering`), those that contend for a token keep theirs (`IsReordering.filter_eq`), and so all
parses are as they were (`parse_reordered`).
-/

namespace CommandScript

/-! ## Rules of lower priority -/

/-- A grammar with more rules, which come after its own. -/
def Grammar.pushAll (g : Grammar) (rs : List Rule) : Grammar :=
  rs.foldl push g

@[simp] theorem Grammar.rules_pushAll (g : Grammar) (rs : List Rule) :
    (g.pushAll rs).rules = g.rules ++ rs := by
  induction rs generalizing g with
  | nil => simp [pushAll]
  | cons r rs ih =>
    have hstep : g.pushAll (r :: rs) = (g.push r).pushAll rs := rfl
    simp [hstep, ih, push]

/-- An attempt that ends at one of some rules does not come to the rules after them. -/
theorem attempt_append {c : Cursor} {rules : List Rule}
    (h : (attempt c rules).outcome ≠ .unmatched) (more : List Rule) :
    attempt c (rules ++ more) = attempt c rules := by
  induction rules with
  | nil => exact absurd rfl h
  | cons r rs ih =>
    rw [attempt] at h
    rw [List.cons_append, attempt, attempt]
    cases hm : r.matchAt c with
    | matched a d => rfl
    | malformed d => rfl
    | missed depth element found =>
      rw [hm] at h
      simp only [ih h]
    | never =>
      rw [hm] at h
      exact ih h

section

variable {g : Grammar} {c : Cursor} (rs : List Rule)

/-- A strict run that does not fail for want of a rule is the same with more rules. -/
theorem strictRun_pushAll (h : ∀ e ∈ (strictRun g c).errors, e.isFatal = true) :
    strictRun (g.pushAll rs) c = strictRun g c := by
  induction c using strictRun.induct (g := g) with
  | case1 c hc => rw [strictRun_of_atEnd hc, strictRun_of_atEnd hc]
  | case2 c hc tried a d ho ih =>
    have hc := Bool.eq_false_iff.mpr hc
    have ho : (attempt c g.rules).outcome = .matched a d := ho
    have htried : attempt c (g.rules ++ rs) = attempt c g.rules :=
      attempt_append (by simp [ho]) rs
    rw [strictRun_of_not_atEnd hc, ho, Run.errors_cons] at h
    rw [strictRun_of_not_atEnd hc, strictRun_of_not_atEnd hc, Grammar.rules_pushAll, htried, ho]
    simp only [ih h]
  | case3 c hc tried d ho =>
    have hc := Bool.eq_false_iff.mpr hc
    have ho : (attempt c g.rules).outcome = .malformed d := ho
    have htried : attempt c (g.rules ++ rs) = attempt c g.rules :=
      attempt_append (by simp [ho]) rs
    rw [strictRun_of_not_atEnd hc, strictRun_of_not_atEnd hc, Grammar.rules_pushAll, htried, ho]
  | case4 c hc tried ho =>
    have hc := Bool.eq_false_iff.mpr hc
    rw [strictRun_of_not_atEnd hc, ho] at h
    exact absurd (h _ (List.mem_singleton_self _)) Bool.false_ne_true

/-- Nor does a recovering run take other steps then. -/
theorem steps_run_pushAll (h : ∀ e ∈ (strictRun g c).errors, e.isFatal = true) (n : Nat) :
    (run (g.pushAll rs) n c).steps = (run g n c).steps := by
  have hmore := strictRun_pushAll rs h
  have h' : ∀ e ∈ (strictRun (g.pushAll rs) c).errors, e.isFatal = true := hmore.symm ▸ h
  rw [steps_run_eq (Or.inr h), steps_run_eq (Or.inr h'), hmore]

end

/-- Rules that come after all others never break a parse that succeeded. With them, a strict parse
gives the same block, or the same error if it failed at a malformed number, and a recovering parse
that records no error gives the same block, still without an error. -/
theorem parse_pushAll (g : Grammar) (rs : List Rule) (ts : List Placed) :
    (∀ b, parse g ts = .ok b → parse (g.pushAll rs) ts = .ok b) ∧
      (∀ text position line, parse g ts = .error (.invalidNumber text position line) →
        parse (g.pushAll rs) ts = .error (.invalidNumber text position line)) ∧
      ∀ n, (parseRecovering g n ts).2 = [] →
        parseRecovering (g.pushAll rs) n ts = parseRecovering g n ts := by
  have hparse (h : ∀ e ∈ (strictRun g ⟨0, ts⟩).errors, e.isFatal = true) :
      parse (g.pushAll rs) ts = parse g ts := by
    rw [parse, strictRun_pushAll rs h, parse]
  refine ⟨fun b hb => ?_, fun text position line he => ?_, fun n hn => ?_⟩
  · have herrors := (Run.result_eq_ok_iff.mp hb).1
    rw [hparse (by simp [herrors]), hb]
  · obtain ⟨herrors, -⟩ := exists_front_of_head?_errors (Run.result_eq_error_iff.mp he)
    rw [hparse (by simp [herrors, ParseError.isFatal]), he]
  · have hn : (run g n ⟨0, ts⟩).errors = [] := hn
    have herrors : (strictRun g ⟨0, ts⟩).errors = [] := by
      rw [← List.head?_eq_none_iff, ← head?_errors_run g n, hn, List.head?_nil]
    have hfatal : ∀ e ∈ (strictRun g ⟨0, ts⟩).errors, e.isFatal = true := by simp [herrors]
    have hsteps := steps_run_pushAll rs hfatal n
    rw [parseRecovering, parseRecovering, Run.block_of_steps_eq hsteps, Run.errors, hsteps,
      Run.errors]

/-- A rule of a keyword and an argument. -/
def goRule : Rule :=
  ⟨"go", [.keyword "go", .argument "where"]⟩

/-- A rule of two arguments, which matches wherever `goRule` does. -/
def anyRule : Rule :=
  ⟨"any", [.argument "verb", .argument "rest"]⟩

/-- Two words on one line. -/
def goNorth : List Placed :=
  [⟨⟨.word, "go"⟩, 1⟩, ⟨⟨.word, "north"⟩, 1⟩]

/-- A word and a malformed number on one line. -/
def goNowhere : List Placed :=
  [⟨⟨.word, "go"⟩, 1⟩, ⟨⟨.number, "1x"⟩, 1⟩]

theorem parse_pushAll_anyRule :
    parse ⟨[goRule]⟩ goNorth = .ok ⟨[⟨"go", ⟨[("where", .str "north")]⟩, 1⟩]⟩ ∧
      parse (.pushAll ⟨[goRule]⟩ [anyRule, goRule, .named "none"]) goNorth =
        .ok ⟨[⟨"go", ⟨[("where", .str "north")]⟩, 1⟩]⟩ ∧
      parse ⟨[goRule]⟩ goNowhere = .error (.invalidNumber "1x" 1 1) ∧
      parse (.pushAll ⟨[goRule]⟩ [anyRule]) goNowhere = .error (.invalidNumber "1x" 1 1) ∧
      (parseRecovering ⟨[goRule]⟩ 2 goNorth).2 = [] ∧
      parseRecovering (.pushAll ⟨[goRule]⟩ [anyRule]) 2 goNorth =
        parseRecovering ⟨[goRule]⟩ 2 goNorth := by
  have hgo : (attempt ⟨0, goNorth⟩ [goRule]).outcome =
      .matched ⟨"go", ⟨[("where", .str "north")]⟩, 1⟩ ⟨2, []⟩ := rfl
  have hok : parse ⟨[goRule]⟩ goNorth = .ok ⟨[⟨"go", ⟨[("where", .str "north")]⟩, 1⟩]⟩ := by
    rw [parse, strictRun_of_not_atEnd rfl, hgo]
    simp only [strictRun_of_atEnd (rfl : Cursor.atEnd ⟨2, []⟩ = true)]
    rfl
  have hstuck : (attempt ⟨0, goNowhere⟩ [goRule]).outcome =
      .malformed ⟨1, [⟨⟨.number, "1x"⟩, 1⟩]⟩ := rfl
  have herror : parse ⟨[goRule]⟩ goNowhere = .error (.invalidNumber "1x" 1 1) := by
    rw [parse, strictRun_of_not_atEnd rfl, hstuck]
    rfl
  have hclean : (parseRecovering ⟨[goRule]⟩ 2 goNorth).2 = [] := by decide +kernel
  exact ⟨hok, (parse_pushAll _ _ goNorth).1 _ hok, herror,
    (parse_pushAll _ _ goNowhere).2.1 _ _ _ herror, hclean,
    (parse_pushAll _ _ goNorth).2.2 2 hclean⟩

/-! ## Rules that do not compete -/

namespace Rule

/-- Two rules are apart if they start with keywords of different texts. -/
def IsApart (r r' : Rule) : Prop :=
  ∃ k k', r.elements.head? = some (.keyword k) ∧ r'.elements.head? = some (.keyword k') ∧ k ≠ k'

/-- Whether a rule contends for a token, which it does unless it starts with a keyword of another
text. -/
def contends (t : Token) (r : Rule) : Bool :=
  match r.elements.head? with
  | some (.keyword k) => t.text == k
  | _ => true

variable {r r' : Rule} {t : Token}

/-- A rule that does not contend for a token fails there at its first element. -/
theorem matchAt_of_not_contends {c : Cursor} (h : r.contends c.peek = false) :
    ∃ k, r.matchAt c = .missed 0 (.keyword k) c.peek := by
  obtain ⟨name, es⟩ := r
  cases es with
  | nil => cases h
  | cons e es =>
    cases e with
    | argument name => cases h
    | keyword k =>
      have hk : c.peek.text ≠ k := by simpa [contends] using h
      exact ⟨k, by simp [matchAt, matchElements, hk]⟩

/-- Rules that contend for one token are not apart. -/
theorem not_isApart_of_contends (h : r.contends t = true) (h' : r'.contends t = true) :
    ¬r.IsApart r' := by
  rintro ⟨k, k', hk, hk', hne⟩
  rw [contends, hk] at h
  rw [contends, hk'] at h'
  exact hne ((beq_iff_eq.mp h).symm.trans (beq_iff_eq.mp h'))

end Rule

/-- The rules that contend for a token decide how an attempt at it ends, and what the best miss at
its end is. -/
theorem attempt_filter_contends (c : Cursor) (rules : List Rule) (best : Option Miss) :
    (attempt c (rules.filter (Rule.contends c.peek))).outcome = (attempt c rules).outcome ∧
      (attempt c (rules.filter (Rule.contends c.peek))).misses.foldl Miss.further best =
        (attempt c rules).misses.foldl Miss.further best := by
  induction rules generalizing best with
  | nil => exact ⟨rfl, rfl⟩
  | cons r rs ih =>
    cases hr : r.contends c.peek with
    | false =>
      obtain ⟨k, hm⟩ := Rule.matchAt_of_not_contends hr
      have hbest : Miss.further best ⟨r.name, 0, .keyword k, c.peek⟩ = best :=
        Miss.further_of_le (Nat.zero_le _)
      rw [List.filter_cons_of_neg (Bool.eq_false_iff.mp hr), attempt, hm]
      simp only [List.foldl_cons, hbest]
      exact ih best
    | true =>
      rw [List.filter_cons_of_pos hr, attempt, attempt]
      cases r.matchAt c with
      | matched a d => exact ⟨rfl, rfl⟩
      | malformed d => exact ⟨rfl, rfl⟩
      | missed depth element found => exact ih _
      | never => exact ih best

/-- Rules in another order. They are numbered by their places before, and only rules that are
apart may stand against the order of their numbers. -/
structure IsReordering (rules rules' : List Rule) (numbered : List (Rule × Nat)) : Prop where
  /-- Every rule is there, with its number. -/
  perm : numbered.Perm rules.zipIdx
  /-- The rules stand in the new order. -/
  rules_eq : numbered.map Prod.fst = rules'
  order : numbered.Pairwise fun x y => x.2 < y.2 ∨ x.1.IsApart y.1

/-- Rules no two of which are apart keep their order. -/
theorem IsReordering.filter_eq {rules rules' : List Rule} {numbered : List (Rule × Nat)}
    (h : IsReordering rules rules' numbered) {p : Rule → Bool}
    (hp : ∀ r r', p r = true → p r' = true → ¬r.IsApart r') :
    rules'.filter p = rules.filter p := by
  have hbefore : (rules.zipIdx.filter (p ∘ Prod.fst)).Pairwise fun x y => x.2 < y.2 := by
    have hnumbers : (rules.zipIdx.map Prod.snd).Pairwise (· < ·) := by
      rw [List.zipIdx_map_snd]
      exact List.pairwise_lt_range'
    exact (List.pairwise_map.mp hnumbers).filter _
  have hafter : (numbered.filter (p ∘ Prod.fst)).Pairwise fun x y => x.2 < y.2 := by
    refine List.pairwise_filter.mpr (h.order.imp fun hxy hx hy => ?_)
    exact hxy.resolve_right (hp _ _ hx hy)
  have hnumbered : numbered.filter (p ∘ Prod.fst) = rules.zipIdx.filter (p ∘ Prod.fst) :=
    List.Perm.eq_of_pairwise (fun x y _ _ hxy hyx => absurd hxy (Nat.lt_asymm hyx))
      hafter hbefore (h.perm.filter _)
  rw [← h.rules_eq, List.filter_map, hnumbered, ← List.filter_map, List.zipIdx_map_fst]

/-- A grammar chooses as it does with its rules in another order. -/
theorem IsReordering.sameChoices {g g' : Grammar} {numbered : List (Rule × Nat)}
    (h : IsReordering g.rules g'.rules numbered) : SameChoices g' g := by
  intro c
  obtain ⟨houtcome, hmisses⟩ := attempt_filter_contends c g.rules none
  obtain ⟨houtcome', hmisses'⟩ := attempt_filter_contends c g'.rules none
  rw [h.filter_eq fun r r' => Rule.not_isApart_of_contends] at houtcome' hmisses'
  have hbest := hmisses'.symm.trans hmisses
  exact ⟨houtcome'.symm.trans houtcome, congrArg (Option.map Miss.rule) hbest⟩

/-- The order of rules matters only between rules that are not apart. If the others change places,
every parse of every row of tokens is as before, strict or recovering with any limit: it gives the
same actions and the same errors, with the same closest rule in each. -/
theorem parse_reordered {g g' : Grammar} {numbered : List (Rule × Nat)}
    (h : IsReordering g.rules g'.rules numbered) (ts : List Placed) :
    parse g' ts = parse g ts ∧ ∀ n, parseRecovering g' n ts = parseRecovering g n ts :=
  ⟨h.sameChoices.parse_eq ts, fun n => h.sameChoices.parseRecovering_eq n ts⟩

/-- A rule of one keyword, which is apart from `goRule` but not from `anyRule`. -/
def lookRule : Rule :=
  ⟨"look", [.keyword "look"]⟩

theorem isReordering_lookRule : IsReordering [goRule, lookRule, anyRule]
    [lookRule, goRule, anyRule] [(lookRule, 1), (goRule, 0), (anyRule, 2)] where
  perm := .swap _ _ _
  rules_eq := rfl
  order := by
    have hapart : lookRule.IsApart goRule := ⟨"look", "go", rfl, rfl, by decide⟩
    simp [hapart]

theorem parse_reordered_lookRule :
    IsReordering [goRule, lookRule, anyRule] [lookRule, goRule, anyRule]
        [(lookRule, 1), (goRule, 0), (anyRule, 2)] ∧
      parse ⟨[lookRule, goRule, anyRule]⟩ goNorth = parse ⟨[goRule, lookRule, anyRule]⟩ goNorth ∧
      ∀ n, parseRecovering ⟨[lookRule, goRule, anyRule]⟩ n goNorth =
        parseRecovering ⟨[goRule, lookRule, anyRule]⟩ n goNorth :=
  ⟨isReordering_lookRule, parse_reordered isReordering_lookRule goNorth⟩

end CommandScript
