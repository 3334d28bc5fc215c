import CommandScript.Proofs.Recovery
import CommandScript.Proofs.Requests

/-!
# What a match consumes

A parser that tries rules where it stands does one of three things (`Stands.tryRules_cases`). It
takes a rule and moves one position on for each of its elements, but not past the end position. Or
it meets a malformed number and stands there. Or it passes over all the rules and stays. To read one
match of a rule is to try this rule alone, and to read an action is to try those of the grammar.

So two things that one may expect of a parser hold but for an exception each. A match consumes one
token for each element, unless the rule has a keyword that is spelled as the end of input: there it
matches, and nothing is consumed (`position_of_matched`, `not_forall_consumes`). An attempt that
gives no action leaves the parser where it was, unless it met a malformed number after its first
element (`position_of_failed`, `not_forall_restores`).
-/

namespace CommandScript

/-! ## Elements at the end of input -/

/-- What fits an end of input is a keyword of its text. -/
theorem Element.eq_keyword_of_fits {e : Element} {t : Token} (h : e.Fits t)
    (ht : t.isEnd = true) : e = .keyword t.text := by
  cases e with
  | keyword text => exact congrArg Element.keyword h.symm
  | argument name =>
    have hkind : t.kind = .eof := by simpa [Token.isEnd] using ht
    obtain ⟨v, hv, -⟩ := Token.reading_of_isArgument h
    simp [Token.reading, hkind] at hv

/-- Of elements that fit, those that come to stand at the end position are keywords of the text that
is read there. -/
theorem FitFrom.eq_keyword {ts : List Placed} {p j : Nat} {es : List Element}
    (h : FitFrom ts p es) (hj : j < es.length) (hend : endPosition ts ≤ p + j) :
    es[j] = .keyword (tokenAt ts (endPosition ts)).token.text := by
  have hfits := h j hj
  rw [tokenAt_of_endPosition_le hend] at hfits
  exact Element.eq_keyword_of_fits hfits (isEnd_tokenAt_endPosition ts)

/-! ## Rules that are tried -/

/-- The rule that is taken among one is this rule. -/
theorem TakenAt.of_singleton {r r' : Rule} {ts : List Placed} {p : Nat}
    (h : TakenAt [r] ts p r') : r' = r ∧ r.MatchesAt ts p := by
  obtain ⟨earlier, later, hrules, hm, -⟩ := h
  have hr : r' = r := List.mem_singleton.mp (by simp [hrules])
  exact ⟨hr, hr ▸ hm⟩

theorem BlockedAt.of_singleton {r : Rule} {ts : List Placed} {p j : Nat}
    (h : BlockedAt [r] ts p j) : StumbleAfter ts p r.elements j := by
  obtain ⟨earlier, r', later, hrules, hj, -⟩ := h
  have hr : r' = r := List.mem_singleton.mp (by simp [hrules])
  exact hr ▸ hj

namespace Parser

theorem result_tryRules_singleton (p : Parser) (r : Rule) :
    (p.tryRules [r]).result = (p.matchRule r).result := by
  rw [tryRules]
  split <;> simp_all [tryRules, Reply.after]

theorem parser_tryRules_singleton (p : Parser) (r : Rule) :
    (p.tryRules [r]).parser = (p.matchRule r).parser := by
  rw [tryRules]
  split <;> simp_all [tryRules, Reply.after]

variable {g : Grammar} {ts : List Placed} {p : Parser}

/-- What a parser may do with rules where it stands. -/
theorem Stands.tryRules_cases (h : Stands g ts p) (rules : List Rule) :
    (∃ r, TakenAt rules ts p.position r ∧
        (p.tryRules rules).result = .ok (some (r.actionAt ts p.position)) ∧
        (p.tryRules rules).parser.position =
          min (p.position + r.elements.length) (endPosition ts)) ∨
      (∃ j, BlockedAt rules ts p.position j ∧
        (p.tryRules rules).result = .error (.invalidNumber
          (tokenAt ts (p.position + j)).token.text (p.position + j)
          (tokenAt ts (p.position + j)).line) ∧
        (p.tryRules rules).parser.position = p.position + j) ∨
      (∀ r ∈ rules, r.PassedAt ts p.position) ∧ (p.tryRules rules).result = .ok none ∧
        (p.tryRules rules).parser.position = p.position := by
  rw [tryRules_eq, h.cursor_eq]
  rcases taken_or_blocked_or_passed rules ts p.position with ⟨r, hr⟩ | ⟨j, hj⟩ | hall
  · rw [outcome_of_takenAt hr]
    exact Or.inl ⟨r, hr, rfl, rfl⟩
  · have hlt := hj.isBadNumber.1
    rw [outcome_of_blockedAt hj]
    refine Or.inr (Or.inl ⟨j, hj, ?_, ?_⟩)
    · exact congrArg Except.error (malformedAt_cursorAt hlt)
    · exact Nat.min_eq_left (Nat.le_of_lt hlt)
  · rw [outcome_of_passed hall]
    refine Or.inr (Or.inr ⟨hall, rfl, ?_⟩)
    exact Nat.min_eq_left h.position_le

/-- Rules that all fail leave the parser where it was. An error leaves it at the malformed number
that it points at. -/
theorem Stands.tryRules_failed (h : Stands g ts p) (rules : List Rule) :
    ((p.tryRules rules).result = .ok none → (p.tryRules rules).parser.position = p.position) ∧
      ∀ e, (p.tryRules rules).result = .error e →
        ∃ j, BlockedAt rules ts p.position j ∧
          e = .invalidNumber (tokenAt ts (p.position + j)).token.text (p.position + j)
            (tokenAt ts (p.position + j)).line ∧
          (p.tryRules rules).parser.position = p.position + j := by
  rcases h.tryRules_cases rules with ⟨r, -, hresult, -⟩ | ⟨j, hj, hresult, hposition⟩ |
    ⟨-, hresult, hposition⟩
  · simp [hresult]
  · refine ⟨fun hnone => by simp [hresult] at hnone, fun e he => ⟨j, hj, ?_, hposition⟩⟩
    exact Except.error.inj (he.symm.trans hresult)
  · exact ⟨fun _ => hposition, fun e he => by simp [hresult] at he⟩

/-- A parser of some tokens as it may be after requests. -/
def IsReachable (g : Grammar) (ts : List Placed) (p : Parser) : Prop :=
  ∃ past, (ofTokens g ts).afterRequests past = p

theorem IsReachable.stands (h : IsReachable g ts p) : Stands g ts p := by
  obtain ⟨past, rfl⟩ := h
  exact (Stands.ofTokens g ts).afterRequests past

/-- A rule that matches moves the parser one position on for each of its elements, but not past the
end position. Elements that come to stand there are keywords spelled as the end of input. So a rule
without such a keyword consumes exactly one token for each element, and at least one. -/
theorem position_of_matched {r : Rule} {a : Action} (hp : IsReachable g ts p)
    (h : (p.matchRule r).result = .ok (some a)) :
    (p.matchRule r).parser.position = min (p.position + r.elements.length) (endPosition ts) ∧
      (∀ j (hj : j < r.elements.length), endPosition ts ≤ p.position + j →
        r.elements[j] = .keyword (tokenAt ts (endPosition ts)).token.text) ∧
      (.keyword (tokenAt ts (endPosition ts)).token.text ∉ r.elements →
        (p.matchRule r).parser.position = p.position + r.elements.length ∧
          p.position < (p.matchRule r).parser.position) := by
  have hstands := hp.stands
  have hle := hstands.position_le
  have hcases := hstands.tryRules_cases [r]
  rw [result_tryRules_singleton, parser_tryRules_singleton, h] at hcases
  rcases hcases with ⟨r', hr', -, hposition⟩ | ⟨j, -, herror, -⟩ | ⟨-, hnone, -⟩
  · obtain ⟨rfl, hne, hfit⟩ := hr'.of_singleton
    have hpos := List.length_pos_iff.mpr hne
    have hend (j : Nat) (hj : j < r'.elements.length) (hle : endPosition ts ≤ p.position + j) :=
      hfit.eq_keyword hj hle
    refine ⟨hposition, hend, fun hkeyword => ?_⟩
    -- if the elements went past the end position, the one that stands there would be the keyword
    have hwithin : p.position + r'.elements.length ≤ endPosition ts := by
      refine Nat.le_of_not_lt fun hlt => hkeyword ?_
      have hj : endPosition ts - p.position < r'.elements.length := by omega
      exact hend _ hj (by omega) ▸ List.getElem_mem hj
    rw [hposition, Nat.min_eq_left hwithin]
    exact ⟨rfl, by omega⟩
  · cases herror
  · cases hnone

/-- A rule of a keyword and an argument. -/
def ringRule : Rule :=
  ⟨"ring", [.keyword "ring", .argument "what"]⟩

/-- Two words that `ringRule` matches. -/
def ringBell : List Placed :=
  [⟨⟨.word, "ring"⟩, 1⟩, ⟨⟨.word, "bell"⟩, 1⟩]

/-- A word that `ringRule` starts with, and a malformed number. -/
def ringBroken : List Placed :=
  [⟨⟨.word, "ring"⟩, 1⟩, ⟨⟨.number, "2x"⟩, 1⟩]

theorem position_of_matched_ringBell :
    let p := ofTokens ⟨[ringRule]⟩ ringBell
    IsReachable ⟨[ringRule]⟩ ringBell p ∧
      (p.matchRule ringRule).result = .ok (some ⟨"ring", ⟨[("what", .str "bell")]⟩, 1⟩) ∧
      .keyword (tokenAt ringBell (endPosition ringBell)).token.text ∉ ringRule.elements ∧
      (p.matchRule ringRule).parser.position = p.position + ringRule.elements.length ∧
      p.position < (p.matchRule ringRule).parser.position := by
  have hreachable : IsReachable ⟨[ringRule]⟩ ringBell (ofTokens ⟨[ringRule]⟩ ringBell) := ⟨[], rfl⟩
  have hkeyword : .keyword (tokenAt ringBell (endPosition ringBell)).token.text ∉
      ringRule.elements := by decide
  exact ⟨hreachable, rfl, hkeyword, (position_of_matched hreachable rfl).2.2 hkeyword⟩

/-- A keyword that is spelled as the end of input matches there, and nothing is consumed. -/
theorem not_forall_consumes :
    ¬∀ g ts p r a, IsReachable g ts p → (p.matchRule r).result = .ok (some a) →
      (p.matchRule r).parser.position = p.position + r.elements.length ∧
        p.position < (p.matchRule r).parser.position := by
  intro h
  have hend := h ⟨[]⟩ [] (ofTokens ⟨[]⟩ []) ⟨"end", [.keyword "<EOF>"]⟩ ⟨"end", .empty, 1⟩
    ⟨[], rfl⟩ rfl
  exact absurd hend.2 (by decide)

/-- A failure leaves the parser where it was if no rule matched. If it is an error, it leaves the
parser at the number that it points at, after the elements that fitted before. -/
theorem position_of_failed (hp : IsReachable g ts p) :
    (∀ r, (p.matchRule r).result = .ok none →
        (p.matchRule r).parser.position = p.position) ∧
      (∀ r e, (p.matchRule r).result = .error e →
        ∃ j, StumbleAfter ts p.position r.elements j ∧
          e = .invalidNumber (tokenAt ts (p.position + j)).token.text (p.position + j)
            (tokenAt ts (p.position + j)).line ∧
          (p.matchRule r).parser.position = p.position + j) ∧
      (p.parseAction.result = .ok none → p.parseAction.parser.position = p.position) ∧
      ∀ e, p.parseAction.result = .error e →
        ∃ j, BlockedAt g.rules ts p.position j ∧
          e = .invalidNumber (tokenAt ts (p.position + j)).token.text (p.position + j)
            (tokenAt ts (p.position + j)).line ∧
          p.parseAction.parser.position = p.position + j := by
  have hstands := hp.stands
  have hrule (r : Rule) := hstands.tryRules_failed [r]
  simp only [result_tryRules_singleton, parser_tryRules_singleton] at hrule
  -- an action is read by trying the rules without what the parser has kept
  have hforget : Stands g ts p.forget := ⟨hstands.grammar, hstands.tokens, hstands.position_le⟩
  have haction := hforget.tryRules_failed g.rules
  have hparse : p.forget.tryRules g.rules = p.parseAction := by
    rw [parseAction, hstands.grammar]
  rw [hparse] at haction
  refine ⟨fun r => (hrule r).1, fun r e he => ?_, haction.1, haction.2⟩
  obtain ⟨j, hj, herror⟩ := (hrule r).2 e he
  exact ⟨j, hj.of_singleton, herror⟩

theorem position_of_failed_ringBroken :
    let p := ofTokens ⟨[ringRule]⟩ ringBroken
    IsReachable ⟨[ringRule]⟩ ringBroken p ∧
      (p.matchRule ringRule).result = .error (.invalidNumber "2x" 1 1) ∧
      (∃ j, StumbleAfter ringBroken p.position ringRule.elements j ∧
        ParseError.invalidNumber "2x" 1 1 = .invalidNumber
          (tokenAt ringBroken (p.position + j)).token.text (p.position + j)
          (tokenAt ringBroken (p.position + j)).line ∧
        (p.matchRule ringRule).parser.position = p.position + j) ∧
      (p.matchRule ⟨"toll", [.keyword "ring", .keyword "bell"]⟩).result = .ok none ∧
      (p.matchRule ⟨"toll", [.keyword "ring", .keyword "bell"]⟩).parser.position = p.position := by
  have hreachable : IsReachable ⟨[ringRule]⟩ ringBroken (ofTokens ⟨[ringRule]⟩ ringBroken) :=
    ⟨[], rfl⟩
  obtain ⟨hmissed, herror, -⟩ := position_of_failed hreachable
  exact ⟨hreachable, rfl, herror _ _ rfl, rfl, hmissed _ rfl⟩

/-- After a malformed number the parser does not stand where it did. -/
theorem not_forall_restores :
    ¬∀ g ts p r, IsReachable g ts p → (∀ a, (p.matchRule r).result ≠ .ok (some a)) →
      (p.matchRule r).parser.position = p.position := by
  intro h
  have hstay := h ⟨[ringRule]⟩ ringBroken (ofTokens ⟨[ringRule]⟩ ringBroken) ringRule ⟨[], rfl⟩
    (fun a ha => by cases ha)
  exact absurd hstay (by decide)

end Parser

end CommandScript
