import CommandScript.JsonForm
import CommandScript.Proofs.Rounding
import CommandScript.Proofs.UsableRules

/-!
# The numbers of a block

A value that a parse binds is that of a token (`exists_argument?_of_parse`). So a number of a block
is the one nearest to a decimal of the text, which has no sign and may have any number of digits.
Below `Double.overflow` this is a finite number, and its JSON form is a number. A longer decimal is
still read, but as infinity, and JSON has only `null` for that (`number_of_parseSource`).
-/

namespace CommandScript

/-- The numbers that are bound in a block. -/
def Block.numbers (b : Block) : List Double :=
  b.actions.flatMap fun a => a.arguments.entries.filterMap fun e => e.2.number?

theorem Block.mem_numbers_of_get? {b : Block} {a : Action} {name : String} {d : Double}
    (ha : a ∈ b.actions) (h : a.arguments.get? name = some (.number d)) : d ∈ b.numbers := by
  obtain ⟨e, he, hd⟩ := Option.map_eq_some_iff.mp h
  refine List.mem_flatMap.mpr ⟨a, ha, List.mem_filterMap.mpr ⟨e, List.mem_of_find?_eq_some he, ?_⟩⟩
  rw [hd]
  rfl

/-! ## Where the values of a block come from -/

theorem Arguments.mem_bindEntry {name : String} {value : Value} {e : String × Value}
    {entries : List (String × Value)} (h : e ∈ (bindEntry name value entries).2) :
    e ∈ entries ∨ e = (name, value) := by
  induction entries with
  | nil => exact Or.inr (List.mem_singleton.mp h)
  | cons e' es ih =>
    obtain ⟨n, v⟩ := e'
    rw [bindEntry] at h
    split at h
    · next hn =>
      rcases List.mem_cons.mp h with rfl | h
      · exact Or.inr (by rw [hn])
      · exact Or.inl (List.mem_cons_of_mem _ h)
    · rcases List.mem_cons.mp h with rfl | h
      · exact Or.inl List.mem_cons_self
      · exact (ih h).imp_left (List.mem_cons_of_mem _)

/-- Binding entries one after the other makes up no new ones. -/
theorem Arguments.mem_of_mem_ofList {entries : List (String × Value)} {e : String × Value}
    (h : e ∈ (ofList entries).entries) : e ∈ entries := by
  induction entries using List.reverseRecOn with
  | nil => exact h
  | append_singleton es e' ih =>
    rw [ofList_concat] at h
    rcases mem_bindEntry h with h | h
    · exact List.mem_append_left _ (ih h)
    · exact List.mem_append_right _ (List.mem_singleton.mpr h)

section

variable {ts : List Placed} {g : Grammar} {b : Block} {e : String × Value}

theorem exists_argument?_of_mem_bindings {p : Nat} {es : List Element}
    (h : e ∈ bindings ts p es) : ∃ k, (tokenAt ts k).token.argument? = some e.2 := by
  induction es generalizing p with
  | nil => cases h
  | cons element es ih =>
    cases element with
    | keyword text => exact ih h
    | argument name =>
      rw [bindings] at h
      split at h
      · next v hv =>
        rcases List.mem_cons.mp h with rfl | h
        · exact ⟨p, hv⟩
        · exact ih h
      · exact ih h

/-- A value that a parse binds is that of one of the tokens. -/
theorem exists_argument?_of_parse (h : parse g ts = .ok b) {a : Action} (ha : a ∈ b.actions)
    (he : e ∈ a.arguments.entries) : ∃ t ∈ ts, t.token.argument? = some e.2 := by
  obtain ⟨n, pos, rule, -, hactions⟩ := exists_isReading_of_ok h
  rw [hactions] at ha
  obtain ⟨i, -, rfl⟩ := List.mem_map.mp ha
  obtain ⟨k, hk⟩ := exists_argument?_of_mem_bindings (Arguments.mem_of_mem_ofList he)
  rcases tokenAt_mem_or_eq ts k with hmem | hend
  · exact ⟨_, hmem, hk⟩
  · rw [hend] at hk
    cases hk

end

theorem Token.ofText?_of_argument? {t : Token} {d : Double} (h : t.argument? = some (.number d)) :
    t.kind = .number ∧ Double.ofText? t.text = some d := by
  obtain ⟨k, text⟩ := t
  cases k <;> simp_all [argument?]

/-- A number of a block is what a number token denotes. -/
theorem exists_ofText?_of_mem_numbers {g : Grammar} {ts : List Placed} {b : Block} {d : Double}
    (h : parse g ts = .ok b) (hd : d ∈ b.numbers) :
    ∃ t ∈ ts, t.token.kind = .number ∧ Double.ofText? t.token.text = some d := by
  obtain ⟨a, ha, hd⟩ := List.mem_flatMap.mp hd
  obtain ⟨e, he, hd⟩ := List.mem_filterMap.mp hd
  obtain ⟨t, ht, hargument⟩ := exists_argument?_of_parse h ha he
  have hvalue : e.2 = .number d := by
    cases hv : e.2 <;> simp_all [Value.number?]
  rw [hvalue] at hargument
  exact ⟨t, ht, Token.ofText?_of_argument? hargument⟩

/-! ## Decimals and their numbers -/

/-- The form with which a number is given out as JSON. -/
def Json.numberForm (value : Json) : Json :=
  .ofFields [("type", .ofText "number"), ("value", value)]

theorem Value.toJson_of_isFinite {d : Double} (h : d.isFinite = true) :
    ∃ literal, (Value.number d).toJson = Json.numberForm (.number literal) := by
  rw [toJson, Json.ofDouble]
  cases hv : d.view with
  | finite negative significand shift => exact ⟨_, rfl⟩
  | _ =>
    rw [Double.isFinite, hv] at h
    cases h

theorem Value.toJson_infinity (negative : Bool) :
    (Value.number (.infinity negative)).toJson = Json.numberForm .null := by
  cases negative <;> rfl

/-- The number nearest to a decimal is finite exactly if the decimal is less than
`Double.overflow`. -/
theorem Double.isFinite_ofDecimal_iff (negative : Bool) (coefficient k : Nat) :
    (ofDecimal ⟨negative, coefficient, -k⟩).isFinite = true ↔ coefficient < overflow * 10 ^ k := by
  rw [ofDecimal_eq_ofRatio]
  exact isFinite_ofRatio_iff negative (Nat.pow_pos (by decide))

theorem Double.ofDecimal_of_not_isFinite {negative : Bool} {coefficient k : Nat}
    (h : ¬coefficient < overflow * 10 ^ k) :
    ofDecimal ⟨negative, coefficient, -k⟩ = infinity negative := by
  have hinfinite := mt (isFinite_ofDecimal_iff negative coefficient k).mp h
  rw [ofDecimal_eq_ofRatio] at *
  exact ofRatio_of_not_isFinite hinfinite

/-- Every number that is bound in a block is that of a decimal of the text. If the decimal is less
than `2 ^ 1024 - 2 ^ 970`, the number is finite and given out as a number. If not, it is infinity,
and given out as `null`. -/
theorem number_of_parseSource {g : Grammar} {source : String} {b : Block}
    (h : parseSource g source = .ok b) :
    ∀ d ∈ b.numbers, ∃ t ∈ (lex source).tokens, Double.ofText? t.token.text = some d ∧
      ∃ whole fraction, t.token = ⟨.number, String.ofList (numeral whole fraction)⟩ ∧
      isDigits whole = true ∧ fraction.all Char.isDigit = true ∧
      (natOfDigits (whole ++ fraction) < Double.overflow * 10 ^ fraction.length →
        d.isFinite = true ∧
          ∃ literal, (Value.number d).toJson = Json.numberForm (.number literal)) ∧
      (¬natOfDigits (whole ++ fraction) < Double.overflow * 10 ^ fraction.length →
        d = .infinity false ∧ (Value.number d).toJson = Json.numberForm .null) := by
  intro d hd
  obtain ⟨t, ht, hkind, htext⟩ := exists_ofText?_of_mem_numbers h hd
  rcases eq_endOfInput_or_isLexeme ht with hend | ⟨cs, hcs⟩
  · rw [hend] at hkind
    cases hkind
  · obtain ⟨whole, fraction, hw, hf, heq⟩ := hcs.exists_numeral hkind
    have htoken : t.token = ⟨.number, String.ofList (numeral whole fraction)⟩ := by
      rw [← hkind, ← heq]
    have hd : .ofDecimal ⟨false, natOfDigits (whole ++ fraction), -fraction.length⟩ = d := by
      rw [heq, ofText?_numeral hw hf] at htext
      exact Option.some.inj htext
    refine ⟨t, ht, htext, whole, fraction, htoken, hw, hf, fun hlt => ?_, fun hge => ?_⟩
    · rw [← hd]
      have hfinite := (Double.isFinite_ofDecimal_iff false _ _).mpr hlt
      exact ⟨hfinite, Value.toJson_of_isFinite hfinite⟩
    · rw [← hd, Double.ofDecimal_of_not_isFinite hge]
      exact ⟨rfl, Value.toJson_infinity false⟩

theorem number_of_parseSource_waitHalf :
    let b := (strictRun ⟨[waitRule]⟩ ⟨0, (lex "wait 2.5").tokens⟩).block
    parseSource ⟨[waitRule]⟩ "wait 2.5" = .ok b ∧ b.numbers = [⟨0x4004000000000000⟩] ∧
      ∃ t ∈ (lex "wait 2.5").tokens, Double.ofText? t.token.text = some ⟨0x4004000000000000⟩ ∧
        ∃ whole fraction, t.token = ⟨.number, String.ofList (numeral whole fraction)⟩ ∧
        natOfDigits (whole ++ fraction) < Double.overflow * 10 ^ fraction.length ∧
        ∃ literal, (Value.number ⟨0x4004000000000000⟩).toJson =
          Json.numberForm (.number literal) := by
  have hparse : parseSource ⟨[waitRule]⟩ "wait 2.5" =
      .ok (strictRun ⟨[waitRule]⟩ ⟨0, (lex "wait 2.5").tokens⟩).block :=
    Run.result_eq_ok_iff.mpr ⟨by decide +kernel, rfl⟩
  have hnumbers : (strictRun ⟨[waitRule]⟩ ⟨0, (lex "wait 2.5").tokens⟩).block.numbers =
      [⟨0x4004000000000000⟩] := by decide +kernel
  obtain ⟨t, ht, htext, whole, fraction, htoken, -, -, hfinite, hinfinite⟩ :=
    number_of_parseSource hparse ⟨0x4004000000000000⟩ (by rw [hnumbers]; exact List.mem_cons_self)
  have hlt : natOfDigits (whole ++ fraction) < Double.overflow * 10 ^ fraction.length :=
    Decidable.byContradiction fun hge => absurd (hinfinite hge).1 (by decide)
  exact ⟨hparse, hnumbers, t, ht, htext, whole, fraction, htoken, hlt, (hfinite hlt).2⟩

/-! ## A decimal that is too large -/

/-- A one with 309 zeros after it. -/
def farDigits : List Char :=
  '1' :: List.replicate 309 '0'

/-- A call with a decimal that is too large. -/
def waitFar : LiteralCall ⟨[waitRule]⟩ :=
  ⟨waitRule, List.mem_singleton_self _, [.number farDigits [] (by decide +kernel) rfl], rfl⟩

/-- The words of this call. -/
def waitFarWords : List (List Char) :=
  ["wait".toList, farDigits]

theorem wordsOfAll_waitFar : WordsOfAll [waitFar] waitFarWords := by
  have hwords : WordsOf ⟨[waitRule]⟩ waitFar.rule.elements waitFar.literals waitFarWords :=
    .bare (by decide +kernel) (.argument rfl .nil)
  exact .cons hwords .nil

theorem values_waitFar : waitFar.call.values = [.number (.infinity false)] := by
  have hfar : ¬natOfDigits (farDigits ++ []) < Double.overflow * 10 ^ ([] : List Char).length := by
    decide +kernel
  exact congrArg (fun d => [Value.number d]) (Double.ofDecimal_of_not_isFinite hfar)

/-- The call is read, and its number is infinity. -/
theorem exists_parseSource_waitFar :
    ∃ b, parseSource ⟨[waitRule]⟩ (spaced waitFarWords) = .ok b ∧ .infinity false ∈ b.numbers := by
  obtain ⟨-, b, hb, hactions⟩ := parseSource_of_wordsOfAll wordsOfAll_waitFar
    fun c hc => List.mem_singleton.mp hc ▸ Grammar.prefers_singleton (List.cons_ne_nil _ _)
  obtain ⟨a, more, ⟨-, hbinds⟩, -, hab⟩ := List.forall₂_cons_left_iff.mp hactions
  rw [values_waitFar] at hbinds
  have hget : a.arguments.get? "seconds" = some (.number (.infinity false)) :=
    hbinds.get? "seconds"
  have ha : a ∈ b.actions := hab ▸ List.mem_cons_self
  exact ⟨b, hb, Block.mem_numbers_of_get? ha hget⟩

/-- Not all numbers of a block are finite. -/
theorem not_forall_isFinite : ¬∀ (g : Grammar) (source : String) (b : Block),
    parseSource g source = .ok b → ∀ d ∈ b.numbers, d.isFinite = true := by
  intro h
  obtain ⟨b, hb, hmem⟩ := exists_parseSource_waitFar
  cases h _ _ b hb _ hmem

end CommandScript
