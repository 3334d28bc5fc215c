import CommandScript.Parser
import CommandScript.Proofs.Priority
import CommandScript.Proofs.RuleWarnings

/-!
# Rules that are never reached

The name of an argument plays no part in whether it matches. So a rule covers another one if its
elements agree, one by one, with the first elements of that one, whatever their arguments are called
(`Rule.Covers`). A rule that an earlier one covers is never reached: it fails where that one fails,
at the same element, and no attempt can tell whether it is there (`sameChoices_of_covers`).

The warning that a rule is shadowed asks for more. It is given if an earlier rule covers the rule and
the two call their arguments the same (`Rule.shadows_iff_covers`). The author of a grammar is thus
told of some of the rules that are never reached, and of no others (`shadowed_iff_covers`).
-/

namespace CommandScript

/-! ## Elements that agree -/

/-- Two elements agree if they are keywords of the same text, or both arguments. -/
def Element.Agrees : Element → Element → Prop
  | keyword k, keyword k' => k = k'
  | argument _, argument _ => True
  | _, _ => False

/-- A rule covers another one if it has elements, and they agree one by one with the first elements
of the other. -/
def Rule.Covers (e r : Rule) : Prop :=
  e.elements ≠ [] ∧
    ∃ front back, r.elements = front ++ back ∧ List.Forall₂ Element.Agrees e.elements front

theorem Element.Agrees.refl (e : Element) : e.Agrees e := by
  cases e with
  | keyword k => exact rfl
  | argument name => exact trivial

/-- Elements that agree and whose arguments have the same names are the same. -/
theorem eq_of_agrees {es front back : List Element} (h : List.Forall₂ Element.Agrees es front)
    (hnames : es.filterMap Element.argument? <+: (front ++ back).filterMap Element.argument?) :
    es = front := by
  induction h with
  | nil => rfl
  | @cons e e' es front he _ ih =>
    cases e with
    | keyword k =>
      cases e' with
      | argument name => cases he
      | keyword k' =>
        have hk : k = k' := he
        rw [hk, ih hnames]
    | argument name =>
      cases e' with
      | keyword k => cases he
      | argument name' =>
        obtain ⟨hname, hnames⟩ := List.cons_prefix_cons.mp hnames
        rw [hname, ih hnames]

/-- A rule shadows another one if it covers it and calls its arguments the same. -/
theorem Rule.shadows_iff_covers {e r : Rule} :
    e.shadows r = true ↔ e.Covers r ∧ e.arguments <+: r.arguments := by
  rw [shadows_iff]
  constructor
  · rintro ⟨hne, more, hmore⟩
    refine ⟨⟨hne, e.elements, more, hmore.symm, ?_⟩, ?_⟩
    · exact List.forall₂_same.mpr fun el _ => Element.Agrees.refl el
    · rw [arguments, arguments, ← hmore, List.filterMap_append]
      exact List.prefix_append _ _
  · rintro ⟨⟨hne, front, back, hr, hagree⟩, hnames⟩
    rw [arguments, arguments, hr] at hnames
    exact ⟨hne, back, by rw [eq_of_agrees hagree hnames, hr]⟩

/-! ## A covered rule fails where the rule that covers it does -/

theorem matchElements_of_agrees {es front : List Element} {depth d : Nat} {a : Arguments}
    {c : Cursor} {el : Element} {t : Token} (hagree : List.Forall₂ Element.Agrees es front)
    (h : matchElements es depth a c = .missed d el t) (a' : Arguments) (back : List Element) :
    ∃ el', matchElements (front ++ back) depth a' c = .missed d el' t := by
  -- the two rules bind other names, so the arguments bound so far differ as the match goes on
  induction hagree generalizing depth a a' c with
  | nil => cases h
  | @cons e e' es front he _ ih =>
    cases e with
    | keyword k =>
      cases e' with
      | argument name => cases he
      | keyword k' =>
        obtain rfl : k = k' := he
        rw [matchElements] at h
        rw [List.cons_append, matchElements]
        split at h
        · next hk =>
          rw [if_pos hk]
          exact ih h a'
        · next hk =>
          cases h
          exact ⟨_, if_neg hk⟩
    | argument name =>
      cases e' with
      | keyword k => cases he
      | argument name' =>
        rw [matchElements] at h
        rw [List.cons_append, matchElements]
        cases hread : c.peek.reading with
        | value v =>
          rw [hread] at h
          exact ih h _
        | malformed =>
          rw [hread] at h
          cases h
        | unfit =>
          rw [hread] at h
          cases h
          exact ⟨_, rfl⟩

theorem Rule.Covers.matchAt {e r : Rule} {c : Cursor} {d : Nat} {el : Element} {t : Token}
    (hcovers : e.Covers r) (h : e.matchAt c = .missed d el t) :
    ∃ el', r.matchAt c = .missed d el' t := by
  obtain ⟨hne, front, back, hr, hagree⟩ := hcovers
  have hr' : r.elements ≠ [] := by
    intro hnil
    obtain ⟨rfl, -⟩ := List.append_eq_nil_iff.mp (hr.symm.trans hnil)
    exact hne (List.forall₂_nil_right_iff.mp hagree)
  rw [Rule.matchAt, if_neg (by simpa using hne)] at h
  rw [Rule.matchAt, if_neg (by simpa using hr'), hr]
  exact matchElements_of_agrees hagree h _ back

/-! ## Attempts without a covered rule -/

theorem reach_le_foldl_further (best : Option Miss) (misses : List Miss) :
    Miss.reach best ≤ Miss.reach (misses.foldl Miss.further best) := by
  induction misses generalizing best with
  | nil => exact Nat.le_refl _
  | cons m misses ih =>
    have hstep := Miss.reach_further best m
    have hrest := ih (Miss.further best m)
    rw [List.foldl_cons]
    omega

/-- Where no rule matches, all that have elements have failed, within reach of the best miss. -/
theorem failedWithin_of_unmatched {c : Cursor} {rules : List Rule}
    (h : (attempt c rules).outcome = .unmatched) (best : Option Miss) :
    FailedWithin c rules (Miss.reach ((attempt c rules).misses.foldl Miss.further best)) := by
  induction rules generalizing best with
  | nil => exact fun _ hr => absurd hr List.not_mem_nil
  | cons r rs ih =>
    rw [attempt] at h ⊢
    cases hm : r.matchAt c with
    | matched a d =>
      rw [hm] at h
      cases h
    | malformed d =>
      rw [hm] at h
      cases h
    | never =>
      rw [hm] at h
      intro e he hne
      rcases List.mem_cons.mp he with rfl | he
      · exact absurd (Rule.matchAt_eq_never_iff.mp hm) hne
      · exact ih h best e he hne
    | missed d el t =>
      rw [hm] at h
      -- the best miss counts that of `r` from here on, and its reach only grows
      have hd : d ≤ Miss.reach (Miss.further best ⟨r.name, d, el, t⟩) := by
        rw [Miss.reach_further]
        exact Nat.le_max_right _ _
      have hrest := reach_le_foldl_further (Miss.further best ⟨r.name, d, el, t⟩)
        (attempt c rs).misses
      intro e he hne
      rcases List.mem_cons.mp he with rfl | he
      · exact ⟨d, el, t, hm, Nat.le_trans hd hrest⟩
      · exact ih h _ e he hne

/-- An attempt that comes to the end of some rules goes on with the rules after them. -/
theorem attempt_append_of_unmatched {c : Cursor} {front : List Rule}
    (h : (attempt c front).outcome = .unmatched) (rules : List Rule) :
    attempt c (front ++ rules) =
      ⟨(attempt c front).misses ++ (attempt c rules).misses, (attempt c rules).outcome⟩ := by
  induction front with
  | nil => rfl
  | cons r rs ih =>
    rw [attempt] at h
    rw [List.cons_append, attempt, attempt]
    cases hm : r.matchAt c with
    | matched a d =>
      rw [hm] at h
      cases h
    | malformed d =>
      rw [hm] at h
      cases h
    | never =>
      rw [hm] at h
      exact ih h
    | missed d el t =>
      rw [hm] at h
      simp only [ih h, List.cons_append]

/-- A grammar chooses as it does without a rule that an earlier one covers. -/
theorem sameChoices_of_covers {earlier : List Rule} {e r : Rule} (he : e ∈ earlier)
    (hcovers : e.Covers r) (later : List Rule) :
    SameChoices ⟨earlier ++ later⟩ ⟨earlier ++ r :: later⟩ := by
  intro c
  -- the rule is tried only if all rules before it have failed, its cover among them
  by_cases hend : (attempt c earlier).outcome = .unmatched
  · obtain ⟨d, el, t, hm, hd⟩ := failedWithin_of_unmatched hend none e he hcovers.1
    obtain ⟨el', hr⟩ := hcovers.matchAt hm
    have hfurther : Miss.further ((attempt c earlier).misses.foldl Miss.further none)
        ⟨r.name, d, el', t⟩ = (attempt c earlier).misses.foldl Miss.further none :=
      Miss.further_of_le hd
    simp only [attempt_append_of_unmatched hend, attempt, hr, Miss.closest, List.foldl_append,
      List.foldl_cons, hfurther, and_self]
  · rw [attempt_append hend, attempt_append hend]
    exact ⟨rfl, rfl⟩

/-! ## What the warning tells -/

theorem Rule.shadowed_mem_warnings_iff {r : Rule} {earlier : List Rule} :
    (∃ n, .shadowed r.name n ∈ r.warnings earlier) ↔ ∃ e ∈ earlier, e.shadows r = true := by
  have hfilter (n : String) : .shadowed r.name n ∈ r.warnings earlier ↔
      .shadowed r.name n ∈ (r.warnings earlier).filter Warning.isDead := by
    simp [Warning.isDead]
  simp only [hfilter, filter_isDead_warnings]
  cases hes : r.elements with
  | nil =>
    have hnone (e : Rule) : ¬e.shadows r = true := fun he => by
      obtain ⟨hne, more, hmore⟩ := shadows_iff.mp he
      exact hne (List.append_eq_nil_iff.mp (hmore.trans hes)).1
    simp [hnone]
  | cons el es =>
    cases hfind : earlier.find? fun e => e.shadows r with
    | none => simpa using hfind
    | some e =>
      have he : e.shadows r = true := by simpa using List.find?_some hfind
      simpa using ⟨e, List.mem_of_find?_eq_some hfind, he⟩

/-- A rule is said to be shadowed if an earlier one covers it and the two call their arguments the
same. Also without the second condition it is never reached: every attempt of a parser ends as it
does without the rule, and so does every parse, strict or recovering. -/
theorem shadowed_iff_covers (earlier later : List Rule) (r : Rule) :
    Grammar.lint ⟨earlier ++ r :: later⟩ =
        Grammar.lint ⟨earlier⟩ ++ r.warnings earlier ++ lintRules (earlier ++ [r]) later ∧
      ((∃ n, .shadowed r.name n ∈ r.warnings earlier) ↔
        ∃ e ∈ earlier, e.Covers r ∧ e.arguments <+: r.arguments) ∧
      ∀ e ∈ earlier, e.Covers r →
        (∀ stream best, (Parser.mk ⟨earlier ++ r :: later⟩ stream best).parseAction.result =
          (Parser.mk ⟨earlier ++ later⟩ stream best).parseAction.result) ∧
        ∀ ts, parse ⟨earlier ++ r :: later⟩ ts = parse ⟨earlier ++ later⟩ ts ∧
          ∀ n, parseRecovering ⟨earlier ++ r :: later⟩ n ts =
            parseRecovering ⟨earlier ++ later⟩ n ts := by
  refine ⟨?_, ?_, fun e he hcovers => ?_⟩
  · rw [Grammar.lint, Grammar.lint, lintRules_append, List.nil_append, lintRules,
      List.append_assoc]
  · simp only [Rule.shadowed_mem_warnings_iff, Rule.shadows_iff_covers]
  · have hsame := sameChoices_of_covers he hcovers later
    refine ⟨fun stream best => ?_, fun ts => ⟨(hsame.parse_eq ts).symm, fun n => ?_⟩⟩
    · rw [Parser.result_parseAction, Parser.result_parseAction]
      exact congrArg Outcome.result (hsame _).1.symm
    · exact (hsame.parseRecovering_eq n ts).symm

/-- A rule that `goRule` covers, with another name for the argument. -/
def travelRule : Rule :=
  ⟨"travel", [.keyword "go", .argument "place", .keyword "by", .argument "means"]⟩

theorem goRule_covers_travelRule : goRule.Covers travelRule :=
  ⟨List.cons_ne_nil _ _, [.keyword "go", .argument "place"], _, rfl,
    .cons rfl (.cons trivial .nil)⟩

theorem shadowed_iff_covers_travelRule :
    goRule ∈ [goRule] ∧ goRule.Covers travelRule ∧
      (∀ stream best, (Parser.mk ⟨[goRule] ++ travelRule :: []⟩ stream best).parseAction.result =
        (Parser.mk ⟨[goRule] ++ []⟩ stream best).parseAction.result) ∧
      ∀ ts, parse ⟨[goRule] ++ travelRule :: []⟩ ts = parse ⟨[goRule] ++ []⟩ ts ∧
        ∀ n, parseRecovering ⟨[goRule] ++ travelRule :: []⟩ n ts =
          parseRecovering ⟨[goRule] ++ []⟩ n ts :=
  ⟨List.mem_cons_self, goRule_covers_travelRule,
    (shadowed_iff_covers [goRule] [] travelRule).2.2 goRule List.mem_cons_self
      goRule_covers_travelRule⟩

/-- Not every rule that an earlier one covers is said to be shadowed. -/
theorem not_forall_shadowed :
    ¬∀ earlier r later e, e ∈ earlier → e.Covers r →
      ∃ n, .shadowed r.name n ∈ Grammar.lint ⟨earlier ++ r :: later⟩ := by
  intro h
  obtain ⟨n, hn⟩ := h [goRule] travelRule [] goRule List.mem_cons_self goRule_covers_travelRule
  have hlint : Grammar.lint ⟨[goRule] ++ travelRule :: []⟩ = [] := by decide +kernel
  rw [hlint] at hn
  cases hn

end CommandScript
