import CommandScript.Grammar.Lint
import CommandScript.Proofs.SameChoices

/-!
# Rules that never act

Two warnings call a rule dead: it has no elements, or the elements of an earlier rule start its
own. `Grammar.live` is a grammar without its dead rules, all deleted at once, one for each of these
warnings (`Grammar.length_live`). `parse_live` says that no parse can tell the two apart.

A rule without elements leaves no trace in an attempt. For a shadowed one, suppose that an attempt
comes to it. Then the rule that shadows it was tried and failed, and so the shadowed rule fails at
the same element and the same token (`Rule.matchAt_of_shadows`). It cannot meet a malformed number,
and it gets no further than the attempt already got, so the rule that got furthest stays the same.
The invariant of the induction over the rules is thus that all earlier rules, dead ones included,
failed within reach of the best miss so far (`FailedWithin`). It does not ask whether the rule that
shadows another one is itself deleted.
-/

namespace CommandScript

/-! ## Deleting dead rules -/

/-- Whether a warning says that its rule never acts. -/
def Warning.isDead : Warning → Bool
  | emptyRule _ => true
  | shadowed .. => true
  | _ => false

/-- Of rules that come after the rules `earlier`, those that no warning calls dead. -/
def liveRules (earlier : List Rule) : List Rule → List Rule
  | [] => []
  | r :: rs =>
    if (r.warnings earlier).any Warning.isDead then liveRules (earlier ++ [r]) rs
    else r :: liveRules (earlier ++ [r]) rs

/-- A grammar without the rules that `Grammar.lint` calls dead. -/
def Grammar.live (g : Grammar) : Grammar :=
  ⟨liveRules [] g.rules⟩

/-- What the warnings about keywords say is never that the rule is dead. -/
theorem Rule.isDead_keywordWarning {r : Rule} {keyword : String} {w : Warning}
    (h : r.keywordWarning? keyword = some w) : w.isDead = false := by
  unfold keywordWarning? at h
  split at h
  · cases h
  · split at h
    · cases h
      rfl
    · cases h
      rfl

/-- The warnings about a rule that call it dead: one if it has no elements, else one if an earlier
rule shadows it. -/
theorem Rule.filter_isDead_warnings (earlier : List Rule) (r : Rule) :
    (r.warnings earlier).filter Warning.isDead =
      if r.elements.isEmpty then [.emptyRule r.name]
      else ((earlier.find? fun e => e.shadows r).map fun e => .shadowed r.name e.name).toList := by
  have hname : ∀ w ∈ (if earlier.any (fun e => e.name == r.name) then
      [Warning.duplicateName r.name] else []), ¬w.isDead = true := by
    intro w hw
    split at hw
    · rw [List.mem_singleton.mp hw]
      exact Bool.false_ne_true
    · cases hw
  have hargument : ∀ w ∈ (repeatedNames [] [] r.arguments).map (Warning.duplicateArgument r.name),
      ¬w.isDead = true := by
    intro w hw
    obtain ⟨name, -, rfl⟩ := List.mem_map.mp hw
    exact Bool.false_ne_true
  have hkeyword : ∀ w ∈ r.keywords.filterMap r.keywordWarning?, ¬w.isDead = true := by
    intro w hw
    obtain ⟨keyword, -, hk⟩ := List.mem_filterMap.mp hw
    exact Bool.eq_false_iff.mp (Rule.isDead_keywordWarning hk)
  rw [warnings, List.filter_append, List.filter_eq_nil_iff.mpr hname, List.nil_append]
  split
  · rfl
  · rw [List.filter_append, List.filter_append, List.filter_eq_nil_iff.mpr hargument,
      List.filter_eq_nil_iff.mpr hkeyword, List.nil_append, List.nil_append]
    cases earlier.find? fun e => e.shadows r with
    | none => rfl
    | some e => rfl

/-- A rule is called dead if it has no elements or an earlier rule shadows it. -/
theorem Rule.any_isDead_warnings {earlier : List Rule} {r : Rule} :
    (r.warnings earlier).any Warning.isDead = true ↔
      r.elements = [] ∨ ∃ e ∈ earlier, e.shadows r = true := by
  have hfilter : (r.warnings earlier).any Warning.isDead = true ↔
      (r.warnings earlier).filter Warning.isDead ≠ [] := by
    simp [List.filter_eq_nil_iff]
  rw [hfilter, filter_isDead_warnings]
  cases hes : r.elements with
  | nil => simp
  | cons e es =>
    cases hfind : earlier.find? fun e => e.shadows r with
    | none => simpa using hfind
    | some e =>
      have hs : e.shadows r = true := by simpa using List.find?_some hfind
      simpa using ⟨e, List.mem_of_find?_eq_some hfind, hs⟩

/-- There is one warning that calls a rule dead, or none. -/
theorem Rule.length_filter_isDead_warnings (earlier : List Rule) (r : Rule) :
    ((r.warnings earlier).filter Warning.isDead).length =
      if (r.warnings earlier).any Warning.isDead then 1 else 0 := by
  have hle : ((r.warnings earlier).filter Warning.isDead).length ≤ 1 := by
    rw [filter_isDead_warnings]
    split
    · exact Nat.le_refl 1
    · cases earlier.find? fun e => e.shadows r with
      | none => exact Nat.zero_le 1
      | some e => exact Nat.le_refl 1
  split
  · next h =>
    obtain ⟨w, hw, hdead⟩ := List.any_eq_true.mp h
    have hpos := List.length_pos_of_mem (List.mem_filter.mpr ⟨hw, hdead⟩)
    omega
  · next h =>
    rw [List.filter_eq_nil_iff.mpr (by simpa using h), List.length_nil]

theorem length_liveRules (earlier rules : List Rule) :
    (liveRules earlier rules).length +
      ((lintRules earlier rules).filter Warning.isDead).length = rules.length := by
  induction rules generalizing earlier with
  | nil => rfl
  | cons r rs ih =>
    have hrs := ih (earlier ++ [r])
    rw [liveRules, lintRules, List.filter_append, List.length_append,
      Rule.length_filter_isDead_warnings]
    split
    · rw [List.length_cons]
      omega
    · rw [List.length_cons, List.length_cons]
      omega

/-- For every rule deleted there is one warning that calls a rule dead. -/
theorem Grammar.length_live (g : Grammar) :
    g.live.rules.length + (g.lint.filter Warning.isDead).length = g.rules.length :=
  length_liveRules [] g.rules

/-! ## A shadowed rule fails like the rule that shadows it -/

/-- Elements that fail do so whatever comes after them. -/
theorem matchElements_append_of_missed {es : List Element} {depth : Nat} {a : Arguments}
    {c : Cursor} {d : Nat} {e : Element} {t : Token}
    (h : matchElements es depth a c = .missed d e t) (es' : List Element) :
    matchElements (es ++ es') depth a c = .missed d e t := by
  induction es generalizing depth a c with
  | nil => cases h
  | cons e' es ih =>
    cases e' with
    | keyword text =>
      rw [List.cons_append, matchElements]
      rw [matchElements] at h
      split at h
      · next ht => rw [if_pos ht, ih h]
      · next ht => rw [if_neg ht, h]
    | argument name =>
      rw [List.cons_append, matchElements]
      rw [matchElements] at h
      cases hv : c.peek.reading with
      | value v =>
        rw [hv] at h
        exact ih h
      | malformed =>
        rw [hv] at h
        cases h
      | unfit =>
        rw [hv] at h
        exact h

namespace Rule

variable {e r : Rule} {c : Cursor}

theorem shadows_iff :
    e.shadows r = true ↔ e.elements ≠ [] ∧ ∃ more, e.elements ++ more = r.elements := by
  simp [shadows, List.IsPrefix]

/-- Where a rule fails, the rules it shadows fail at the same element and the same token. -/
theorem matchAt_of_shadows {d : Nat} {el : Element} {t : Token} (hs : e.shadows r = true)
    (h : e.matchAt c = .missed d el t) : r.matchAt c = .missed d el t := by
  obtain ⟨hne, more, hmore⟩ := shadows_iff.mp hs
  have hr : r.elements ≠ [] := hmore ▸ List.append_ne_nil_of_left_ne_nil hne more
  rw [matchAt, if_neg (by simpa using hne)] at h
  rw [matchAt, if_neg (by simpa using hr), ← hmore]
  exact matchElements_append_of_missed h more

end Rule

/-! ## Rules that failed before -/

/-- At a cursor, every rule that has elements fails, after at most `depth` of them. -/
def FailedWithin (c : Cursor) (rules : List Rule) (depth : Nat) : Prop :=
  ∀ r ∈ rules, r.elements ≠ [] → ∃ d el t, r.matchAt c = .missed d el t ∧ d ≤ depth

namespace FailedWithin

variable {c : Cursor} {earlier : List Rule} {r : Rule} {depth depth' : Nat}

theorem mono (h : FailedWithin c earlier depth) (hle : depth ≤ depth') :
    FailedWithin c earlier depth' := by
  intro e he hne
  obtain ⟨d, el, t, hm, hd⟩ := h e he hne
  exact ⟨d, el, t, hm, Nat.le_trans hd hle⟩

/-- A rule without elements may come after the others. -/
theorem snoc_nil (h : FailedWithin c earlier depth) (hr : r.elements = []) :
    FailedWithin c (earlier ++ [r]) depth := by
  intro e he hne
  rcases List.mem_append.mp he with he | he
  · exact h e he hne
  · exact absurd (List.mem_singleton.mp he ▸ hr) hne

/-- A rule that fails within the depth may come after the others. -/
theorem snoc {d : Nat} {el : Element} {t : Token} (h : FailedWithin c earlier depth)
    (hr : r.matchAt c = .missed d el t) (hd : d ≤ depth) :
    FailedWithin c (earlier ++ [r]) depth := by
  intro e he hne
  rcases List.mem_append.mp he with he | he
  · exact h e he hne
  · exact ⟨d, el, t, List.mem_singleton.mp he ▸ hr, hd⟩

end FailedWithin

/-! ## Attempts and runs without dead rules -/

/-- After earlier rules that failed within reach of the best miss, an attempt that leaves out the
dead rules ends like one with all of them, and the best miss at its end is the same. -/
theorem attempt_liveRules {c : Cursor} {earlier : List Rule} {best : Option Miss}
    (h : FailedWithin c earlier (Miss.reach best)) (rules : List Rule) :
    (attempt c (liveRules earlier rules)).outcome = (attempt c rules).outcome ∧
      (attempt c (liveRules earlier rules)).misses.foldl Miss.further best =
        (attempt c rules).misses.foldl Miss.further best := by
  induction rules generalizing earlier best with
  | nil => exact ⟨rfl, rfl⟩
  | cons r rs ih =>
    rw [liveRules]
    split
    · next hdead =>
      rcases Rule.any_isDead_warnings.mp hdead with hnil | ⟨e, he, hs⟩
      · rw [attempt, Rule.matchAt_eq_never_iff.mpr hnil]
        exact ih (h.snoc_nil hnil)
      · -- the rule that shadows `r` failed before, so `r` fails in the same way
        obtain ⟨d, el, t, hm, hd⟩ := h e he (Rule.shadows_iff.mp hs).1
        have hr := Rule.matchAt_of_shadows hs hm
        have hbest : Miss.further best ⟨r.name, d, el, t⟩ = best := Miss.further_of_le hd
        rw [attempt, hr]
        simp only [List.foldl_cons, hbest]
        exact ih (h.snoc hr hd)
    · next hlive =>
      have hne : r.elements ≠ [] := fun hnil => hlive (Rule.any_isDead_warnings.mpr (Or.inl hnil))
      rw [attempt, attempt]
      cases hm : r.matchAt c with
      | matched a c' => exact ⟨rfl, rfl⟩
      | malformed c' => exact ⟨rfl, rfl⟩
      | never => exact absurd (Rule.matchAt_eq_never_iff.mp hm) hne
      | missed d el t =>
        -- `r` is tried in both attempts, and from here on counts as an earlier rule
        have hreach := Miss.reach_further best ⟨r.name, d, el, t⟩
        have hearlier := h.mono (hreach ▸ Nat.le_max_left ..)
        exact ih (hearlier.snoc hm (hreach ▸ Nat.le_max_right ..))

/-- A grammar chooses as it does without its dead rules. -/
theorem Grammar.sameChoices_live (g : Grammar) : SameChoices g.live g := by
  intro c
  have hnone : FailedWithin c [] (Miss.reach none) := fun r hr => absurd hr List.not_mem_nil
  obtain ⟨houtcome, hmisses⟩ := attempt_liveRules hnone g.rules
  exact ⟨houtcome, congrArg (Option.map Miss.rule) hmisses⟩

/-- Without the rules that `Grammar.lint` calls dead, a grammar parses every row of tokens as
before, strictly and recovering with any limit: to the same actions and to the same errors, with
the same closest rule in each. -/
theorem parse_live (g : Grammar) (ts : List Placed) :
    parse g.live ts = parse g ts ∧
      ∀ n, parseRecovering g.live n ts = parseRecovering g n ts :=
  ⟨g.sameChoices_live.parse_eq ts, fun n => g.sameChoices_live.parseRecovering_eq n ts⟩

end CommandScript
