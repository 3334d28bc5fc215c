import Mathlib.Data.List.Forall2
import CommandScript.Proofs.Bindings
import CommandScript.Proofs.StrictReading

/-!
# Tokens that carry calls

A call is a rule with a value for each of its arguments. Tokens carry the elements of its rule if
each keyword meets a token of its text and each argument a token that is worth its value
(`Carries`). Where such tokens stand, the elements fit and bind their names to the values
(`Carries.fitFrom`, `Carries.bindings_eq`). So tokens that carry one call after the other
(`CarriesAll`) are parsed as these calls, if the rule of each call is the one that is taken
wherever it matches (`parse_of_carriesAll`).
-/

namespace CommandScript

/-! ## Tokens that stand in a row -/

/-- Tokens stand in a row from position `p` on. -/
def StandsAt (ts : List Placed) (p : Nat) (toks : List Token) : Prop :=
  ∀ j (hj : j < toks.length), (tokenAt ts (p + j)).token = toks[j]

section

variable {ts : List Placed} {p : Nat} {toks : List Token}

theorem standsAt_cons {t : Token} :
    StandsAt ts p (t :: toks) ↔ (tokenAt ts p).token = t ∧ StandsAt ts (p + 1) toks := by
  constructor
  · intro h
    refine ⟨h 0 (Nat.succ_pos _), fun j hj => ?_⟩
    have hp : p + 1 + j = p + (j + 1) := by omega
    rw [hp]
    exact h (j + 1) (Nat.succ_lt_succ hj)
  · rintro ⟨h0, hs⟩ j hj
    cases j with
    | zero => exact h0
    | succ j =>
      have hp : p + (j + 1) = p + 1 + j := by omega
      rw [List.getElem_cons_succ, hp]
      exact hs j (Nat.lt_of_succ_lt_succ hj)

theorem standsAt_append {more : List Token} : StandsAt ts p (toks ++ more) ↔
    StandsAt ts p toks ∧ StandsAt ts (p + toks.length) more := by
  induction toks generalizing p with
  | nil => simp [StandsAt]
  | cons t toks ih =>
    have hp : p + (t :: toks).length = p + 1 + toks.length := by
      rw [List.length_cons]
      omega
    rw [List.cons_append, standsAt_cons, standsAt_cons, ih, hp, and_assoc]

/-- Tokens before a first end of input stand from position 0 on, and that is where they stop. -/
theorem standsAt_zero (h : ts.map Placed.token = toks ++ [.endOfInput])
    (hend : ∀ t ∈ toks, t.isEnd = false) :
    endPosition ts = toks.length ∧ StandsAt ts 0 toks := by
  have hstop : endPosition ts = toks.length := by
    have hmap : endPosition ts = (ts.map Placed.token).findIdx Token.isEnd := by
      rw [List.findIdx_map]
      rfl
    have htoks : toks.findIdx Token.isEnd = toks.length := List.findIdx_eq_length.mpr hend
    rw [hmap, h, List.findIdx_append, htoks, if_neg (Nat.lt_irrefl _)]
    exact Nat.zero_add _
  refine ⟨hstop, fun j hj => ?_⟩
  have hget : (ts.map Placed.token)[j]? = some (tokenAt ts j).token := by
    rw [List.getElem?_map, getElem?_eq_tokenAt (hstop ▸ hj)]
    rfl
  rw [h, List.getElem?_append_left hj, List.getElem?_eq_getElem hj] at hget
  rw [Nat.zero_add]
  exact (Option.some.inj hget).symm

end

/-! ## Tokens that carry elements -/

/-- Each keyword meets a token of its text, and each argument a token that is worth its value. -/
inductive Carries : List Element → List Value → List Token → Prop
  | nil : Carries [] [] []
  | keyword {t : Token} {k : String} {es : List Element} {vs : List Value} {toks : List Token}
    (ht : t.text = k) (h : Carries es vs toks) : Carries (.keyword k :: es) vs (t :: toks)
  | argument {t : Token} {v : Value} {name : String} {es : List Element} {vs : List Value}
    {toks : List Token} (hv : t.argument? = some v) (h : Carries es vs toks) :
    Carries (.argument name :: es) (v :: vs) (t :: toks)

namespace Carries

variable {ts : List Placed} {p : Nat} {es : List Element} {vs : List Value} {toks : List Token}

theorem length_eq (h : Carries es vs toks) : es.length = toks.length := by
  induction h with
  | nil => rfl
  | keyword ht h ih => rw [List.length_cons, List.length_cons, ih]
  | argument hv h ih => rw [List.length_cons, List.length_cons, ih]

theorem fitFrom (h : Carries es vs toks) (hp : StandsAt ts p toks) : FitFrom ts p es := by
  induction h generalizing p with
  | nil => exact fitFrom_nil
  | keyword hk h ih =>
    obtain ⟨ht, hp⟩ := standsAt_cons.mp hp
    exact fitFrom_cons.mpr ⟨(congrArg Token.text ht).trans hk, ih hp⟩
  | argument hv h ih =>
    obtain ⟨ht, hp⟩ := standsAt_cons.mp hp
    refine fitFrom_cons.mpr ⟨?_, ih hp⟩
    rw [ht]
    exact Token.isArgument_of_argument? hv

/-- The names of the arguments are bound to the values that the tokens carry. -/
theorem bindings_eq (h : Carries es vs toks) (hp : StandsAt ts p toks) :
    bindings ts p es = (es.filterMap Element.argument?).zip vs := by
  induction h generalizing p with
  | nil => rfl
  | keyword ht h ih => exact ih (standsAt_cons.mp hp).2
  | argument hv h ih =>
    obtain ⟨ht, hp⟩ := standsAt_cons.mp hp
    rw [bindings, ht, hv, ih hp]
    rfl

end Carries

/-! ## Tokens that carry calls -/

/-- A rule, and values for its arguments. -/
structure Call where
  rule : Rule
  values : List Value

/-- An action of the rule of a call that binds the names of its arguments to the values. -/
def Call.IsDoneBy (c : Call) (a : Action) : Prop :=
  a.name = c.rule.name ∧ Binds a.arguments (c.rule.arguments.zip c.values)

/-- Tokens that carry one call after the other. -/
inductive CarriesAll : List Call → List Token → Prop
  | nil : CarriesAll [] []
  | cons {c : Call} {calls : List Call} {toks more : List Token}
    (hc : Carries c.rule.elements c.values toks) (h : CarriesAll calls more) :
    CarriesAll (c :: calls) (toks ++ more)

/-- A rule has elements, and it is taken wherever it matches. -/
def Grammar.Prefers (g : Grammar) (r : Rule) : Prop :=
  r.elements ≠ [] ∧ ∀ ts p, r.MatchesAt ts p → TakenAt g.rules ts p r

/-- A strict run from where the tokens stand does the calls that they carry, without an error. -/
theorem strictRun_of_carriesAll {g : Grammar} {ts : List Placed} {p : Nat} {calls : List Call}
    {toks : List Token} (h : CarriesAll calls toks) (hp : StandsAt ts p toks)
    (hstop : endPosition ts = p + toks.length) (hg : ∀ c ∈ calls, g.Prefers c.rule) :
    (strictRun g (cursorAt ts p)).errors = [] ∧
      List.Forall₂ Call.IsDoneBy calls (strictRun g (cursorAt ts p)).block.actions := by
  induction h generalizing p with
  | nil =>
    rw [strictRun_of_atEnd ((atEnd_cursorAt_iff ts p).mpr (Nat.le_of_eq hstop))]
    exact ⟨rfl, .nil⟩
  | @cons c calls toks more hc h ih =>
    obtain ⟨hp, hmore⟩ := standsAt_append.mp hp
    obtain ⟨⟨hne, htaken⟩, hg⟩ := List.forall_mem_cons.mp hg
    have hlength := hc.length_eq
    have hpos := List.length_pos_iff.mpr hne
    -- the next call starts where the tokens of this one end
    rw [List.length_append] at hstop
    obtain ⟨herrors, hactions⟩ := ih hmore (by omega) hg
    have htaken := htaken ts p ⟨hne, hc.fitFrom hp⟩
    rw [strictRun_of_takenAt (by omega) htaken, Run.errors_cons, Run.actions_block_cons, hlength]
    refine ⟨herrors, .cons ⟨rfl, ?_⟩ hactions⟩
    rw [Rule.actionAt, hc.bindings_eq hp]
    exact Arguments.binds_ofList _

/-- Tokens that carry calls, and the end of input after them, are parsed as these calls. -/
theorem parse_of_carriesAll {g : Grammar} {ts : List Placed} {calls : List Call}
    {toks : List Token} (h : CarriesAll calls toks)
    (hts : ts.map Placed.token = toks ++ [.endOfInput]) (hend : ∀ t ∈ toks, t.isEnd = false)
    (hg : ∀ c ∈ calls, g.Prefers c.rule) :
    ∃ b, parse g ts = .ok b ∧ List.Forall₂ Call.IsDoneBy calls b.actions := by
  obtain ⟨hstop, hstand⟩ := standsAt_zero hts hend
  obtain ⟨herrors, hactions⟩ := strictRun_of_carriesAll h hstand (by omega) hg
  rw [cursorAt_zero] at herrors hactions
  exact ⟨_, Run.result_eq_ok_iff.mpr ⟨herrors, rfl⟩, hactions⟩

end CommandScript
