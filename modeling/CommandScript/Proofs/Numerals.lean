import CommandScript.Proofs.Recovery
import CommandScript.Proofs.Simulation
import CommandScript.Proofs.TokenText

/-!
# Numbers in a text

The number tokens of a text and the decimals that denote a number are told apart from the rest in
two places, which agree: digits, and a point and the digits of a fraction if there are any, denote
the number nearest to them, however many they are (`ofText?_numeral`), and that is what a number
token of a text is made of (`IsLexeme.exists_numeral`). So a number token of a text is never
malformed, no parse of a text stumbles over one, and the only error that is left is that no rule
matches (`no_malformed_number`).
-/

namespace CommandScript

/-! ## Decimals -/

theorem readSign_of_isDigit {c : Char} (h : c.isDigit = true) (cs : List Char) :
    readSign (c :: cs) = (false, c :: cs) := by
  unfold readSign
  split
  · next heq =>
    rw [(List.cons.inj heq).1] at h
    cases h
  · next heq =>
    rw [(List.cons.inj heq).1] at h
    cases h
  · rfl

theorem readFraction_numeral {whole fraction : List Char} (hw : whole.all Char.isDigit = true)
    (hf : fraction.all Char.isDigit = true) :
    (numeral whole fraction).takeWhile Char.isDigit = whole ∧
      Decimal.readFraction ((numeral whole fraction).dropWhile Char.isDigit) = (fraction, []) := by
  cases fraction with
  | nil =>
    obtain ⟨htake, hdrop⟩ := span_append [] hw (by simp)
    rw [List.append_nil] at htake hdrop
    rw [numeral, htake, hdrop]
    exact ⟨rfl, rfl⟩
  | cons d fraction =>
    obtain ⟨htake, hdrop⟩ := span_append ('.' :: d :: fraction) hw (by simp)
    obtain ⟨htake', hdrop'⟩ := span_append [] hf (by simp)
    rw [List.append_nil] at htake' hdrop'
    have hnumeral : numeral whole (d :: fraction) = whole ++ '.' :: d :: fraction := rfl
    rw [hnumeral, htake, hdrop, Decimal.readFraction, htake', hdrop']
    exact ⟨rfl, rfl⟩

/-- A decimal denotes the number nearest to it. -/
theorem ofText?_numeral {whole fraction : List Char} (hw : isDigits whole = true)
    (hf : fraction.all Char.isDigit = true) :
    Double.ofText? (String.ofList (numeral whole fraction)) =
      some (.ofDecimal ⟨false, natOfDigits (whole ++ fraction), -fraction.length⟩) := by
  obtain ⟨hne, hall⟩ := Bool.and_eq_true_iff.mp hw
  obtain ⟨hwhole, hfraction⟩ := readFraction_numeral hall hf
  have hsign : readSign (numeral whole fraction) = (false, numeral whole fraction) := by
    cases whole with
    | nil => cases hne
    | cons c whole =>
      have hc := (Bool.and_eq_true_iff.mp hall).1
      cases fraction <;> exact readSign_of_isDigit hc _
  have hempty : (whole.isEmpty && fraction.isEmpty) = false := by simp_all
  rw [Double.ofText?, String.toList_ofList, Double.ofChars?, hsign]
  simp [Decimal.ofUnsigned?, hwhole, hfraction, hempty, Decimal.readExponent?]

/-! ## The number tokens of a text -/

/-- A number token that characters stand for is a decimal. -/
theorem IsLexeme.exists_numeral {t : Token} {cs : List Char} (h : IsLexeme t cs)
    (hk : t.kind = .number) :
    ∃ whole fraction, isDigits whole = true ∧ fraction.all Char.isDigit = true ∧
      t.text = String.ofList (numeral whole fraction) := by
  cases h with
  | number hw hf => exact ⟨_, _, hw, hf, rfl⟩
  | fixed hs hne =>
    subst hk
    cases hs
  | _ => cases hk

section

variable {source : String}

/-- The text of a number token of a text denotes a number. -/
theorem exists_ofText?_of_mem {t : Placed} (h : t ∈ (lex source).tokens)
    (hk : t.token.kind = .number) : ∃ d, Double.ofText? t.token.text = some d := by
  rcases eq_endOfInput_or_isLexeme h with hend | ⟨cs, hcs⟩
  · rw [hend] at hk
    cases hk
  · obtain ⟨whole, fraction, hw, hf, htext⟩ := hcs.exists_numeral hk
    exact ⟨_, htext ▸ ofText?_numeral hw hf⟩

theorem not_isBadNumber_tokenAt (source : String) (p : Nat) :
    ¬(tokenAt (lex source).tokens p).token.IsBadNumber := by
  rintro ⟨hk, hnone⟩
  rcases tokenAt_mem_or_eq (lex source).tokens p with hmem | hend
  · obtain ⟨d, hd⟩ := exists_ofText?_of_mem hmem hk
    rw [hnone] at hd
    cases hd
  · rw [hend] at hk
    cases hk

/-! ## The errors that are left -/

/-- An error that says that no rule matches. -/
def ParseError.IsNoRule (e : ParseError) : Prop :=
  ∃ found position line closest, e = .noRule found position line closest

theorem Stretch.isNoRule_of_mem_errors {ts : List Placed} {ss : List Stretch} {e : ParseError}
    (h : e ∈ errors ts ss) : e.IsNoRule := by
  obtain ⟨event, hevent, he⟩ := List.mem_filterMap.mp h
  obtain ⟨s, -, rfl⟩ := List.mem_map.mp hevent
  cases s with
  | taken p r => cases he
  | skipped p closest =>
    cases he
    exact ⟨_, _, _, _, rfl⟩

/-- No recovering run of a text ends with a fatal error, so all its errors are that no rule
matches. -/
theorem isNoRule_of_mem_errors_run {g : Grammar} {n : Nat} {e : ParseError}
    (h : e ∈ (run g n ⟨0, (lex source).tokens⟩).errors) : e.IsNoRule := by
  obtain ⟨ss, stop, fatal, htiling⟩ := exists_isTiling_run g (lex source).tokens n
  have hfatal : fatal = none := by
    refine Option.eq_none_iff_forall_not_mem.mpr fun e he => ?_
    obtain ⟨q, -, -, hbad, -⟩ := htiling.fatal_at e he
    exact not_isBadNumber_tokenAt source q hbad
  rw [htiling.errors_eq, hfatal, Option.toList_none, List.append_nil] at h
  exact Stretch.isNoRule_of_mem_errors h

end

/-- A text has no malformed number: every number token of it denotes one, and the only error of a
parse of the text, strict or recovering, is that no rule matches. -/
theorem no_malformed_number (source : String) (g : Grammar) (n : Nat) :
    (∀ t ∈ (lex source).tokens, t.token.kind = .number →
        ∃ d, Double.ofText? t.token.text = some d) ∧
      (∀ e, parseSource g source = .error e → e.IsNoRule) ∧
      ∀ e ∈ (parseRecovering g n (lex source).tokens).2, e.IsNoRule := by
  refine ⟨fun t ht hk => exists_ofText?_of_mem ht hk, fun e he => ?_, fun e he => ?_⟩
  · rw [parseSource, parse_eq_result_run_one, Run.result_eq_error_iff] at he
    exact isNoRule_of_mem_errors_run (List.mem_of_head? he)
  · exact isNoRule_of_mem_errors_run he

/-- A rule that takes one value. -/
def waitRule : Rule :=
  ⟨"wait", [.keyword "wait", .argument "seconds"]⟩

/-- A text with a number that a rule takes, and with a word that none does. -/
def waitStop : String :=
  "wait 2.5 stop"

/-- The error at the word that no rule takes. -/
def stopError : ParseError :=
  .noRule ⟨.word, "stop"⟩ 2 1 none

theorem no_malformed_number_waitStop :
    ⟨⟨.number, "2.5"⟩, 1⟩ ∈ (lex waitStop).tokens ∧ (∃ d, Double.ofText? "2.5" = some d) ∧
      parseSource ⟨[waitRule]⟩ waitStop = .error stopError ∧
      stopError ∈ (parseRecovering ⟨[waitRule]⟩ 2 (lex waitStop).tokens).2 ∧
      stopError.IsNoRule := by
  obtain ⟨hnumbers, herrors, -⟩ := no_malformed_number waitStop ⟨[waitRule]⟩ 2
  have hmem : ⟨⟨.number, "2.5"⟩, 1⟩ ∈ (lex waitStop).tokens := by decide +kernel
  have herror : parseSource ⟨[waitRule]⟩ waitStop = .error stopError := by
    rw [parseSource, parse, Run.result_eq_error_iff]
    decide +kernel
  have hrecovering : stopError ∈ (parseRecovering ⟨[waitRule]⟩ 2 (lex waitStop).tokens).2 := by
    decide +kernel
  exact ⟨hmem, hnumbers _ hmem rfl, herror, hrecovering, herrors _ herror⟩

end CommandScript
