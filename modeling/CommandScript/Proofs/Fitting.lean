import CommandScript.Matching
import CommandScript.Proofs.Position

/-!
# Where elements fit

What matching elements does at a position, said without a cursor and without trying anything. A
token is an argument (`Token.IsArgument`), a number token without a number (`Token.IsBadNumber`),
or neither. Elements fit from a position on if each of them fits the token at its place
(`FitFrom`); they stumble after `j` of them if those fit and the next is an argument that stands
at a bad number (`StumbleAfter`). Matching elements succeeds exactly where they fit
(`matchElements_eq_matched_iff`) and meets a malformed number exactly where they stumble
(`matchElements_eq_malformed_iff`).
-/

namespace CommandScript

/-! ## Tokens as arguments -/

/-- A word, a string, a variable, a truth value, or a number token whose text denotes a number. -/
def Token.IsArgument (t : Token) : Prop :=
  t.kind = .word ∨ t.kind = .str ∨ t.kind = .var ∨ t.kind = .keyTrue ∨ t.kind = .keyFalse ∨
    t.kind = .number ∧ Double.ofText? t.text ≠ none

/-- A number token whose text denotes no number. -/
def Token.IsBadNumber (t : Token) : Prop :=
  t.kind = .number ∧ Double.ofText? t.text = none

/-- The value of a token that is an argument: words and strings are texts, the name of a variable
refers to it, and a number is the one that the text denotes. -/
def Token.argument? (t : Token) : Option Value :=
  match t.kind with
  | .word | .str => some (.str t.text)
  | .var => some (.var t.text)
  | .keyTrue => some (.bool true)
  | .keyFalse => some (.bool false)
  | .number => (Double.ofText? t.text).map .number
  | _ => none

theorem Token.reading_of_isArgument {t : Token} (h : t.IsArgument) :
    ∃ v, t.reading = .value v ∧ t.argument? = some v := by
  obtain ⟨k, text⟩ := t
  rcases h with rfl | rfl | rfl | rfl | rfl | ⟨rfl, hn⟩
  · exact ⟨_, rfl, rfl⟩
  · exact ⟨_, rfl, rfl⟩
  · exact ⟨_, rfl, rfl⟩
  · exact ⟨_, rfl, rfl⟩
  · exact ⟨_, rfl, rfl⟩
  · obtain ⟨d, hd⟩ := Option.ne_none_iff_exists'.mp hn
    exact ⟨.number d, by simp only [reading, hd], by simp only [argument?, hd, Option.map_some]⟩

theorem Token.isArgument_of_argument? {t : Token} {v : Value} (h : t.argument? = some v) :
    t.IsArgument := by
  have hne : t.argument? ≠ none := by simp [h]
  obtain ⟨k, text⟩ := t
  cases k <;> simp_all [IsArgument, argument?]

instance : DecidablePred Token.IsArgument := fun t =>
  decidable_of_iff (t.argument?.isSome = true) <| by
    rw [Option.isSome_iff_exists]
    constructor
    · rintro ⟨v, hv⟩
      exact Token.isArgument_of_argument? hv
    · intro h
      obtain ⟨v, -, hv⟩ := Token.reading_of_isArgument h
      exact ⟨v, hv⟩

theorem Token.reading_of_isBadNumber {t : Token} (h : t.IsBadNumber) :
    t.reading = .malformed := by
  simp only [reading, h.1, h.2]

theorem Token.reading_of_neither {t : Token} (ha : ¬t.IsArgument) (hb : ¬t.IsBadNumber) :
    t.reading = .unfit := by
  obtain ⟨k, text⟩ := t
  cases k <;> simp_all [IsArgument, IsBadNumber, reading]

/-- No token is an argument and a bad number. -/
theorem Token.not_isBadNumber_of_isArgument {t : Token} (h : t.IsArgument) : ¬t.IsBadNumber := by
  intro hb
  obtain ⟨v, hv, -⟩ := reading_of_isArgument h
  rw [reading_of_isBadNumber hb] at hv
  cases hv

/-! ## Elements at a position -/

/-- Whether a token has what an element asks for. -/
def Element.Fits : Element → Token → Prop
  | keyword text, t => t.text = text
  | argument _, t => t.IsArgument

instance (e : Element) (t : Token) : Decidable (e.Fits t) :=
  match e with
  | .keyword text => inferInstanceAs (Decidable (t.text = text))
  | .argument _ => inferInstanceAs (Decidable t.IsArgument)

/-- Whether an element is an argument and a token a bad number. -/
def Element.Stumbles : Element → Token → Prop
  | keyword _, _ => False
  | argument _, t => t.IsBadNumber

variable {ts : List Placed} {p : Nat}

/-- Each element fits the token at its place, the first one the token at `p`. -/
def FitFrom (ts : List Placed) (p : Nat) (es : List Element) : Prop :=
  ∀ j (hj : j < es.length), es[j].Fits (tokenAt ts (p + j)).token

/-- The first `j` elements fit from `p` on, and the next one stumbles over the token after them. -/
def StumbleAfter (ts : List Placed) (p : Nat) (es : List Element) (j : Nat) : Prop :=
  ∃ hj : j < es.length, FitFrom ts p (es.take j) ∧ es[j].Stumbles (tokenAt ts (p + j)).token

/-- The names that elements bind from `p` on, each with the value of the token at its place. -/
def bindings (ts : List Placed) : Nat → List Element → List (String × Value)
  | _, [] => []
  | p, .keyword _ :: es => bindings ts (p + 1) es
  | p, .argument name :: es =>
    match (tokenAt ts p).token.argument? with
    | some v => (name, v) :: bindings ts (p + 1) es
    | none => bindings ts (p + 1) es

theorem fitFrom_nil : FitFrom ts p [] := by
  intro j hj
  cases hj

theorem fitFrom_cons {e : Element} {es : List Element} :
    FitFrom ts p (e :: es) ↔ e.Fits (tokenAt ts p).token ∧ FitFrom ts (p + 1) es := by
  constructor
  · intro h
    refine ⟨h 0 (Nat.succ_pos _), fun j hj => ?_⟩
    have hp : p + 1 + j = p + (j + 1) := by omega
    rw [hp]
    exact h (j + 1) (Nat.succ_lt_succ hj)
  · rintro ⟨h0, hs⟩ j hj
    cases j with
    | zero => exact h0
    | succ j =>
      have hp : p + (j + 1) = p + 1 + j := by omega
      rw [List.getElem_cons_succ, hp]
      exact hs j (Nat.lt_of_succ_lt_succ hj)

theorem not_stumbleAfter_nil {j : Nat} : ¬StumbleAfter ts p [] j := by
  rintro ⟨hj, -⟩
  cases hj

theorem stumbleAfter_cons_zero {e : Element} {es : List Element} :
    StumbleAfter ts p (e :: es) 0 ↔ e.Stumbles (tokenAt ts p).token := by
  constructor
  · rintro ⟨hj, -, h⟩
    exact h
  · intro h
    exact ⟨Nat.succ_pos _, fitFrom_nil, h⟩

theorem stumbleAfter_cons_succ {e : Element} {es : List Element} {j : Nat} :
    StumbleAfter ts p (e :: es) (j + 1) ↔
      e.Fits (tokenAt ts p).token ∧ StumbleAfter ts (p + 1) es j := by
  have hp : p + (j + 1) = p + 1 + j := by omega
  constructor
  · rintro ⟨hj, hfit, h⟩
    rw [List.take_succ_cons, fitFrom_cons] at hfit
    rw [List.getElem_cons_succ, hp] at h
    exact ⟨hfit.1, Nat.lt_of_succ_lt_succ hj, hfit.2, h⟩
  · rintro ⟨he, hj, hfit, h⟩
    refine ⟨Nat.succ_lt_succ hj, ?_, ?_⟩
    · rw [List.take_succ_cons, fitFrom_cons]
      exact ⟨he, hfit⟩
    · rwa [List.getElem_cons_succ, hp]

/-- Elements stumble at their first one, or after it where the others do. -/
theorem exists_stumbleAfter_cons {e : Element} {es : List Element} {P : Nat → Prop} :
    (∃ j, StumbleAfter ts p (e :: es) j ∧ P (p + j)) ↔
      e.Stumbles (tokenAt ts p).token ∧ P p ∨
        e.Fits (tokenAt ts p).token ∧ ∃ j, StumbleAfter ts (p + 1) es j ∧ P (p + 1 + j) := by
  constructor
  · rintro ⟨j, h, hP⟩
    cases j with
    | zero => exact Or.inl ⟨stumbleAfter_cons_zero.mp h, hP⟩
    | succ j =>
      obtain ⟨he, hs⟩ := stumbleAfter_cons_succ.mp h
      have hp : p + (j + 1) = p + 1 + j := by omega
      exact Or.inr ⟨he, j, hs, hp ▸ hP⟩
  · rintro (⟨h, hP⟩ | ⟨he, j, hs, hP⟩)
    · exact ⟨0, stumbleAfter_cons_zero.mpr h, hP⟩
    · have hp : p + (j + 1) = p + 1 + j := by omega
      exact ⟨j + 1, stumbleAfter_cons_succ.mpr ⟨he, hs⟩, hp ▸ hP⟩

/-! ## Matching elements at a position -/

/-- Elements match exactly where they fit. They bind the names of their arguments, and the cursor
moves one position on for each of them. -/
theorem matchElements_eq_matched_iff {es : List Element} {depth : Nat} {a a' : Arguments}
    {c : Cursor} : matchElements es depth a (cursorAt ts p) = .matched a' c ↔
      FitFrom ts p es ∧ a' = (bindings ts p es).foldl (fun b e => b.insert e.1 e.2) a ∧
        c = cursorAt ts (p + es.length) := by
  induction es generalizing p depth a with
  | nil => simp [matchElements, fitFrom_nil, bindings, eq_comm]
  | cons e es ih =>
    have hlen : p + (e :: es).length = p + 1 + es.length := by
      rw [List.length_cons]
      omega
    rw [fitFrom_cons, hlen]
    cases e with
    | keyword text =>
      rw [matchElements, peek_cursorAt, advance_cursorAt]
      by_cases h : (tokenAt ts p).token.text = text
      · simp [h, Element.Fits, ih, bindings]
      · simp [h, Element.Fits]
    | argument name =>
      rw [matchElements, peek_cursorAt, advance_cursorAt]
      by_cases ha : (tokenAt ts p).token.IsArgument
      · obtain ⟨v, hv, hv'⟩ := Token.reading_of_isArgument ha
        simp [hv, hv', ha, Element.Fits, ih, bindings]
      · by_cases hb : (tokenAt ts p).token.IsBadNumber
        · simp [Token.reading_of_isBadNumber hb, ha, Element.Fits]
        · simp [Token.reading_of_neither ha hb, ha, Element.Fits]

/-- Matching elements meets a malformed number exactly where they stumble, and the cursor stands
at that number. -/
theorem matchElements_eq_malformed_iff {es : List Element} {depth : Nat} {a : Arguments}
    {c : Cursor} : matchElements es depth a (cursorAt ts p) = .malformed c ↔
      ∃ j, StumbleAfter ts p es j ∧ c = cursorAt ts (p + j) := by
  induction es generalizing p depth a with
  | nil => simp [matchElements, not_stumbleAfter_nil]
  | cons e es ih =>
    rw [exists_stumbleAfter_cons (P := fun q => c = cursorAt ts q)]
    cases e with
    | keyword text =>
      rw [matchElements, peek_cursorAt, advance_cursorAt]
      by_cases h : (tokenAt ts p).token.text = text
      · simp [h, Element.Fits, Element.Stumbles, ih]
      · simp [h, Element.Fits, Element.Stumbles]
    | argument name =>
      rw [matchElements, peek_cursorAt, advance_cursorAt]
      by_cases ha : (tokenAt ts p).token.IsArgument
      · obtain ⟨v, hv, -⟩ := Token.reading_of_isArgument ha
        simp [hv, ha, Token.not_isBadNumber_of_isArgument ha, Element.Fits, Element.Stumbles, ih]
      · by_cases hb : (tokenAt ts p).token.IsBadNumber
        · simp [Token.reading_of_isBadNumber hb, ha, hb, Element.Fits, Element.Stumbles, eq_comm]
        · simp [Token.reading_of_neither ha hb, ha, hb, Element.Fits, Element.Stumbles]

end CommandScript
