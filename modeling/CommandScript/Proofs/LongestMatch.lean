import CommandScript.Proofs.Lossless

/-!
# The longest match

Where a part of a text starts that is no run of blanks, the characters from there on decide which
part it is (`TextPart.IsReadFrom`). A quote takes the text up to the next quote that is equal to it,
or all of the text if there is none. Any other character takes the longest beginning that
`IsSpelling` allows, and the token is the one that these characters stand for; a character with
which no spelling starts is skipped. A cut is greedy if this holds of every part (`IsGreedy`). Each
text has one greedy cut and no other, and its tokens and diagnostics are those that are read
(`existsUnique_isGreedyCut`).

The order of the tests in `readPiece` plays no part in this. What is read and a spelling have the
same first character, and that alone says what the rest of the spelling can be
(`IsSpelling.cases_cons`), so no spelling goes on longer (`length_le_of_isSpelling`).
-/

namespace CommandScript

/-! ## Spellings and their lengths -/

/-- The characters that a token may have in a text, strings apart. -/
inductive IsSpelling : List Char → Prop
  /-- An operator or a punctuation mark. -/
  | mark {k : Kind} {s : String} (hs : k.fixedText? = some s) (hk : k.isKeyword = false)
      (he : k ≠ .eof) : IsSpelling s.toList
  /-- Digits, and maybe a point with more digits. -/
  | number {whole fraction : List Char} (hw : isDigits whole = true)
      (hf : fraction.all Char.isDigit = true) : IsSpelling (numeral whole fraction)
  /-- A letter or an underscore, and then also digits. -/
  | identifier {cs : List Char} (hcs : isIdentifier cs = true) : IsSpelling cs
  /-- A dollar sign, and then letters, underscores and digits. -/
  | var {cs : List Char} (hcs : cs.all isWordBody = true) : IsSpelling ('$' :: cs)

/-- The longest beginning of a text that is in a language. -/
structure IsLongest (L : List Char → Prop) (cs text : List Char) : Prop where
  begins : cs <+: text
  mem : L cs
  longest : ∀ w, w <+: text → L w → w.length ≤ cs.length

/-- A part is the one that a text starts with, if it does not start with a blank. -/
structure TextPart.IsReadFrom (text : List Char) (p : TextPart) : Prop where
  /-- A quote takes the text up to the next one that is equal to it. -/
  closed : ∀ q cs later, text = q :: cs ++ q :: later → isQuote q = true → q ∉ cs →
    p = .lexeme ⟨.str, String.ofList cs⟩ (q :: cs ++ [q])
  /-- If there is none, it takes all of the text. -/
  unclosed : ∀ q cs, text = q :: cs → isQuote q = true → q ∉ cs → p = .unclosed q cs
  /-- Any other character takes the longest spelling, with the token that it stands for. -/
  lexeme : ∀ c cs, text = c :: cs → isQuote c = false → ∀ t w,
    p = .lexeme t w ↔ IsLongest IsSpelling w text ∧ IsLexeme t w
  /-- A character is skipped exactly if there is no spelling. -/
  skipped : ∀ c cs, text = c :: cs → isQuote c = false →
    (p = .skipped c ↔ ∀ w, w <+: text → ¬IsSpelling w)

/-- Every part that is no run of blanks is the one that the text from there on starts with. -/
def IsGreedy : List TextPart → Prop
  | [] => True
  | p :: ps => (p.isRun = false → p.IsReadFrom ((p :: ps).flatMap TextPart.chars)) ∧ IsGreedy ps

/-- A cut of a text of which every part is the one that the text from there on starts with. -/
structure IsGreedyCut (source : String) (parts : List TextPart) : Prop where
  /-- The parts are the text, in order. -/
  chars : parts.flatMap TextPart.chars = source.toList
  proper : ∀ p ∈ parts, p.IsProper
  /-- Runs of blanks are as long as they can be. -/
  runs : parts.IsChain fun p q => p.isRun = true → q.isRun = false
  greedy : IsGreedy parts
  /-- The tokens that are read are those of the parts in order, and then the end of input. -/
  tokens : (lex source).tokens.map Placed.token =
    parts.filterMap TextPart.token? ++ [.endOfInput]
  /-- The diagnostics are about the characters that are skipped and the quote that is never closed,
  in order. -/
  diagnostics : (lex source).diagnostics.map Diagnostic.subject =
    parts.filterMap TextPart.subject?

theorem IsLongest.unique {L : List Char → Prop} {cs cs' text : List Char}
    (h : IsLongest L cs text) (h' : IsLongest L cs' text) : cs = cs' := by
  have hle := h'.longest cs h.begins h.mem
  have hge := h.longest cs' h'.begins h'.mem
  exact (List.prefix_of_prefix_length_le h.begins h'.begins hle).eq_of_length (by omega)

/-- A beginning that is of a class is no longer than all the characters of the class. -/
theorem length_le_length_takeWhile {p : Char → Bool} {w cs : List Char} (h : w <+: cs)
    (hw : w.all p = true) : w.length ≤ (cs.takeWhile p).length := by
  obtain ⟨rest, rfl⟩ := h
  rw [List.all_eq_true] at hw
  simp [List.takeWhile_append_of_pos hw]

/-- What follows the first character of a spelling, by what that character is. -/
theorem IsSpelling.cases_cons {c : Char} {w : List Char} (h : IsSpelling (c :: w)) :
    ((∃ k, mark? c = some k) ∧ w = []) ∨
      (∃ k, operatorWithEquals? c = some k ∧ w = ['=']) ∨
      (c.isDigit = true ∧ ∃ whole fraction, whole.all Char.isDigit = true ∧
        fraction.all Char.isDigit = true ∧ numeral (c :: whole) fraction = c :: w) ∨
      ((isWordStart c = true ∨ c = '$') ∧ w.all isWordBody = true) := by
  generalize hcw : c :: w = cw at h
  cases h with
  | mark hs hk he =>
    obtain ⟨d, ⟨hd, hm⟩ | ⟨hd, ho⟩⟩ := mark_fixedText? hk he hs
    · rw [hd, List.cons.injEq] at hcw
      obtain ⟨rfl, rfl⟩ := hcw
      exact Or.inl ⟨⟨_, hm⟩, rfl⟩
    · rw [hd, List.cons.injEq] at hcw
      obtain ⟨rfl, rfl⟩ := hcw
      exact Or.inr (Or.inl ⟨_, ho, rfl⟩)
  | @number whole fraction hw hf =>
    obtain ⟨d, whole, rfl⟩ := List.exists_cons_of_ne_nil (l := whole) (by rintro rfl; cases hw)
    have hdigits : d.isDigit = true ∧ whole.all Char.isDigit = true := by
      simpa [isDigits] using hw
    have hdc : d = c := by cases fraction <;> exact (List.cons.inj hcw).1.symm
    rw [← hdc]
    exact Or.inr (Or.inr (Or.inl ⟨hdigits.1, whole, fraction, hdigits.2, hf, by rw [hdc]⟩))
  | identifier hcs =>
    rw [← hcw, isIdentifier, Bool.and_eq_true_iff] at hcs
    exact Or.inr (Or.inr (Or.inr ⟨Or.inl hcs.1, hcs.2⟩))
  | var hcs =>
    rw [List.cons.injEq] at hcw
    obtain ⟨rfl, rfl⟩ := hcw
    exact Or.inr (Or.inr (Or.inr ⟨Or.inr rfl, hcs⟩))

/-! ## What is read is the longest -/

section

variable {c : Char} {cs w : List Char}

theorem length_le_length_readNumber {whole fraction : List Char}
    (hw : whole.all Char.isDigit = true) (hf : fraction.all Char.isDigit = true)
    (h : numeral (c :: whole) fraction <+: c :: cs) :
    (numeral (c :: whole) fraction).length ≤ (readNumber c cs).1.spelling.length := by
  cases fraction with
  | nil =>
    have hwhole := length_le_length_takeWhile (List.cons_prefix_cons.mp h).2 hw
    have hle : (c :: cs.takeWhile Char.isDigit).length ≤ (readNumber c cs).1.spelling.length := by
      unfold readNumber
      split
      · split <;> simp [Piece.spelling]
      · simp [Piece.spelling]
    simp only [numeral, List.length_cons] at hle ⊢
    omega
  | cons d fraction =>
    obtain ⟨hd, hf⟩ := Bool.and_eq_true_iff.mp hf
    obtain ⟨rest, hrest⟩ := h
    obtain rfl : whole ++ ('.' :: d :: fraction ++ rest) = cs := by simpa [numeral] using hrest
    have hpoint : ∀ x ∈ ('.' :: d :: fraction ++ rest).head?, x.isDigit = false := by simp
    obtain ⟨htake, hdrop⟩ := span_append _ hw hpoint
    have hfraction := length_le_length_takeWhile (List.prefix_append fraction rest) hf
    rw [readNumber, htake, hdrop]
    simp only [numeral, Piece.spelling, List.cons_append, List.length_cons, List.length_append, hd,
      if_true]
    omega

/-- No spelling at the start of a text is longer than what is read. -/
theorem length_le_of_isSpelling (h : IsSpelling w) (hw : w <+: c :: cs) :
    w.length ≤ (readPiece c cs).1.spelling.length := by
  obtain - | ⟨d, w⟩ := w
  · exact Nat.zero_le _
  obtain ⟨rfl, hprefix⟩ := List.cons_prefix_cons.mp hw
  have hpos := List.length_pos_iff.mpr (spelling_readPiece_ne_nil d cs)
  rcases h.cases_cons with ⟨-, rfl⟩ | ⟨k, hk, rfl⟩ | ⟨hd, whole, fraction, hwhole, hf, hnum⟩ |
    ⟨hd | rfl, hbody⟩
  · exact hpos
  · obtain ⟨rest, rfl⟩ := hprefix
    obtain ⟨k', hm⟩ := mark?_of_operatorWithEquals? hk
    rw [List.singleton_append, readPiece_of_readMark? _ (isBlank_eq_false_of_mark? hm)
      (readMark?_of_operatorWithEquals? hk), spelling_of_operatorWithEquals? hk]
  · rw [← hnum] at hw ⊢
    rw [readPiece_of_isDigit cs hd]
    exact length_le_length_readNumber hwhole hf hw
  · rw [readPiece_of_isWordStart cs hd]
    exact Nat.succ_le_succ (length_le_length_takeWhile hprefix hbody)
  · rw [readPiece_dollar]
    exact Nat.succ_le_succ (length_le_length_takeWhile hprefix hbody)

end

/-! ## Spellings and lexemes -/

/-- What a lexeme is that is no string. -/
theorem IsLexeme.isSpelling {t : Token} {c : Char} {w : List Char} (h : IsLexeme t (c :: w))
    (hc : isQuote c = false) : IsSpelling (c :: w) := by
  generalize hcw : c :: w = cw at h
  cases h with
  | @fixed k s hs hk =>
    cases hkey : k.isKeyword with
    | true => exact .identifier (keyword?_fixedText? hkey hs).2
    | false => exact .mark hs hkey hk
  | word hcs hk => exact .identifier hcs
  | number hw hf => exact .number hw hf
  | var hcs => exact .var hcs
  | str hq hcs =>
    rw [← (List.cons.inj hcw).1, hc] at hq
    cases hq

theorem IsSpelling.exists_isLexeme {w : List Char} (h : IsSpelling w) : ∃ t, IsLexeme t w := by
  cases h with
  | mark hs hk he => exact ⟨_, .fixed hs he⟩
  | number hw hf => exact ⟨_, .number hw hf⟩
  | identifier hcs =>
    cases hk : Kind.keyword? (String.ofList w) with
    | none => exact ⟨_, .word hcs hk⟩
    | some k => exact ⟨_, isLexeme_fixed (fixedText?_of_keyword? hk)⟩
  | var hcs => exact ⟨_, .var hcs⟩

/-- Characters stand for one token only. -/
theorem IsLexeme.token_unique {t t' : Token} {w : List Char} (h : IsLexeme t w)
    (h' : IsLexeme t' w) : t = t' := by
  obtain ⟨p, hp, -, hpieces⟩ := exists_pieces_eq_cons h breaksOff_nil
  obtain ⟨p', hp', -, hpieces'⟩ := exists_pieces_eq_cons h' breaksOff_nil
  rw [hpieces, List.cons.injEq] at hpieces'
  rw [hpieces'.1, hp'] at hp
  exact (Option.some.inj hp).symm

theorem IsLexeme.ne_nil {t : Token} {w : List Char} (h : IsLexeme t w) : w ≠ [] := by
  rintro rfl
  obtain ⟨p, -, -, hpieces⟩ := exists_pieces_eq_cons h breaksOff_nil
  simp [pieces] at hpieces

/-- Each spelling at the start of a text starts with the first character. -/
theorem IsSpelling.exists_isLexeme_cons {c : Char} {cs w : List Char} (h : IsSpelling w)
    (hw : w <+: c :: cs) : ∃ t w', IsLexeme t (c :: w') := by
  obtain ⟨t, ht⟩ := h.exists_isLexeme
  obtain ⟨d, w', rfl⟩ := List.exists_cons_of_ne_nil ht.ne_nil
  rw [(List.cons_prefix_cons.mp hw).1] at ht
  exact ⟨t, w', ht⟩

/-! ## The parts of a text -/

namespace TextPart

section

variable {c : Char} {cs : List Char}

/-- Without blanks and quotes there are two sorts of parts. -/
theorem ofPiece_readPiece (cs : List Char) (hb : isBlank c = false) (hq : isQuote c = false) :
    (ofPiece (readPiece c cs).1 = .skipped c ∧ ∀ t w, ¬IsLexeme t (c :: w)) ∨
      ∃ t, ofPiece (readPiece c cs).1 = .lexeme t (readPiece c cs).1.spelling ∧
        IsLexeme t (readPiece c cs).1.spelling := by
  have hspelling := spelling_readPiece c cs
  have hsound := sound_readPiece c cs
  generalize (readPiece c cs).1 = p at hspelling hsound ⊢
  cases hsound with
  | blank hd =>
    rw [(List.cons.inj hspelling).1, hb] at hd
    cases hd
  | unknown hd hnone =>
    rw [(List.cons.inj hspelling).1] at hnone ⊢
    exact Or.inl ⟨rfl, hnone⟩
  | lexeme ht hd hl => exact Or.inr ⟨_, ofPiece_of_token? ht hd, hl⟩
  | unclosed hd hnot =>
    rw [(List.cons.inj hspelling).1, hq] at hd
    cases hd

theorem isLongest_spelling {t : Token} (hq : isQuote c = false)
    (h : IsLexeme t (readPiece c cs).1.spelling) :
    IsLongest IsSpelling (readPiece c cs).1.spelling (c :: cs) := by
  have hbegins : (readPiece c cs).1.spelling <+: c :: cs := ⟨_, spelling_readPiece c cs⟩
  refine ⟨hbegins, ?_, fun w hw hs => length_le_of_isSpelling hs hw⟩
  obtain ⟨d, w, hdw⟩ := List.exists_cons_of_ne_nil h.ne_nil
  rw [hdw] at h hbegins ⊢
  rw [(List.cons_prefix_cons.mp hbegins).1] at h ⊢
  exact h.isSpelling hq

/-- The part of the first piece is the one that the text starts with. -/
theorem isReadFrom_readPiece (hb : isBlank c = false) :
    (ofPiece (readPiece c cs).1).IsReadFrom (c :: cs) where
  closed q text later h hq hnot := by
    obtain ⟨rfl, rfl⟩ := List.cons.inj h
    rw [readPiece_of_isQuote _ hq, List.append_eq, readQuoted_append hnot]
    rfl
  unclosed q text h hq hnot := by
    obtain ⟨rfl, rfl⟩ := List.cons.inj h
    have hdrop : cs.dropWhile (· != c) = [] := by
      refine List.dropWhile_eq_nil_iff.mpr fun d hd => bne_iff_ne.mpr ?_
      rintro rfl
      exact hnot hd
    rw [readPiece_of_isQuote _ hq, readQuoted, hdrop]
    rfl
  lexeme d ds h hq t w := by
    obtain ⟨rfl, rfl⟩ := List.cons.inj h
    rcases ofPiece_readPiece cs hb hq with ⟨hskip, hnone⟩ | ⟨t', hlex, ht'⟩
    · rw [hskip]
      constructor
      · intro hp
        cases hp
      · rintro ⟨hlongest, -⟩
        obtain ⟨t', w', hl⟩ := hlongest.mem.exists_isLexeme_cons hlongest.begins
        exact absurd hl (hnone t' w')
    · have hlongest := isLongest_spelling hq ht'
      rw [hlex]
      constructor
      · intro hp
        cases hp
        exact ⟨hlongest, ht'⟩
      · rintro ⟨hlongest', ht⟩
        rw [hlongest'.unique hlongest] at ht ⊢
        rw [ht.token_unique ht']
  skipped d ds h hq := by
    obtain ⟨rfl, rfl⟩ := List.cons.inj h
    rcases ofPiece_readPiece cs hb hq with ⟨hskip, hnone⟩ | ⟨t', hlex, ht'⟩
    · refine ⟨fun _ w hw hs => ?_, fun _ => hskip⟩
      obtain ⟨t', w', hl⟩ := hs.exists_isLexeme_cons hw
      exact hnone t' w' hl
    · have hlongest := isLongest_spelling hq ht'
      rw [hlex]
      constructor
      · intro hp
        cases hp
      · exact fun hnot => absurd hlongest.mem (hnot _ hlongest.begins)

end

theorem isGreedy_joinPart {p : TextPart} {parts : List TextPart} (hparts : IsGreedy parts)
    (hp : p.isRun = false → p.IsReadFrom (p.chars ++ parts.flatMap chars)) :
    IsGreedy (joinPart p parts) := by
  unfold joinPart
  split
  · exact ⟨nofun, hparts.2⟩
  · exact ⟨hp, hparts⟩

end TextPart

/-- The parts of the pieces of a text are greedy. -/
theorem isGreedy_partsOf_pieces (s : List Char) : IsGreedy (partsOf (pieces s)) := by
  induction s using pieces.induct with
  | case1 => simp [pieces, partsOf, IsGreedy]
  | case2 c cs ih =>
    rw [pieces, partsOf_cons]
    refine TextPart.isGreedy_joinPart ih fun hrun => ?_
    have hb : isBlank c = false := by
      refine Bool.eq_false_iff.mpr fun hb => ?_
      rw [readPiece_of_isBlank cs hb] at hrun
      cases hrun
    have hsound : ∀ p ∈ pieces (readPiece c cs).2, p.Sound := fun p hp => sound_of_mem_pieces hp
    rw [TextPart.chars_ofPiece (sound_readPiece c cs), flatMap_chars_partsOf hsound,
      spelling_pieces, spelling_readPiece]
    exact TextPart.isReadFrom_readPiece hb

/-! ## No other cut is greedy -/

theorem IsLexeme.isBlank_eq_false {t : Token} {c : Char} {w : List Char}
    (h : IsLexeme t (c :: w)) : isBlank c = false := by
  rcases h.head with ⟨k, hk⟩ | hd | hw | rfl | hq
  · exact isBlank_eq_false_of_mark? hk
  · exact isBlank_eq_false_of_isWordBody (isWordBody_of_isDigit hd)
  · exact isBlank_eq_false_of_isWordBody (isWordBody_of_isWordStart hw)
  · rfl
  · rcases isQuote_iff.mp hq with rfl | rfl <;> rfl

namespace TextPart

/-- A part has characters, and the first of them tells whether it is a run of blanks. -/
theorem IsProper.exists_chars {p : TextPart} (h : p.IsProper) :
    ∃ c cs, p.chars = c :: cs ∧ isBlank c = p.isRun := by
  cases p with
  | blanks run =>
    obtain ⟨c, cs, rfl⟩ := List.exists_cons_of_ne_nil h.1
    exact ⟨c, cs, rfl, h.2 c List.mem_cons_self⟩
  | skipped c => exact ⟨c, [], rfl, h.1⟩
  | lexeme t w =>
    obtain ⟨c, cs, rfl⟩ := List.exists_cons_of_ne_nil (IsLexeme.ne_nil h)
    exact ⟨c, cs, rfl, IsLexeme.isBlank_eq_false h⟩
  | unclosed q cs =>
    have hq : isBlank q = false := by rcases isQuote_iff.mp h.1 with rfl | rfl <;> rfl
    exact ⟨q, cs, rfl, hq⟩

theorem exists_eq_blanks {p : TextPart} (h : p.isRun = true) : ∃ run, p = .blanks run := by
  cases p with
  | blanks run => exact ⟨run, rfl⟩
  | _ => cases h

/-- A text starts with one part only. -/
theorem IsReadFrom.unique {text : List Char} {p p' : TextPart} (h : p.IsReadFrom text)
    (h' : p'.IsReadFrom text) (hp : p.IsProper) (hrun : p.isRun = false)
    (hbegins : p.chars <+: text) : p = p' := by
  obtain ⟨c, w, hchars, -⟩ := hp.exists_chars
  obtain ⟨rest, rfl⟩ := hbegins
  rw [hchars, List.cons_append] at h h'
  by_cases hq : isQuote c = true
  · by_cases hmem : c ∈ w ++ rest
    · obtain ⟨cs, later, hsplit, hnot⟩ := List.eq_append_cons_of_mem hmem
      rw [hsplit] at h h'
      rw [h.closed c cs later rfl hq hnot, h'.closed c cs later rfl hq hnot]
    · rw [h.unclosed c _ rfl hq hmem, h'.unclosed c _ rfl hq hmem]
  · have hq := Bool.eq_false_iff.mpr hq
    cases p with
    | blanks run => cases hrun
    | skipped d =>
      obtain ⟨rfl, rfl⟩ := List.cons.inj hchars
      exact ((h'.skipped _ _ rfl hq).mpr ((h.skipped _ _ rfl hq).mp rfl)).symm
    | lexeme t cs =>
      exact ((h'.lexeme _ _ rfl hq t cs).mpr ((h.lexeme _ _ rfl hq t cs).mp rfl)).symm
    | unclosed q cs =>
      rw [(List.cons.inj hchars).1] at hp
      exact absurd hp.1 (Bool.eq_false_iff.mp hq)

/-- A run of blanks goes on to the first character that is none. -/
theorem takeWhile_isBlank_run {run : List Char} {parts : List TextPart}
    (hrun : (blanks run).IsProper) (hparts : ∀ p ∈ parts, p.IsProper)
    (hchain : (blanks run :: parts).IsChain fun p q => p.isRun = true → q.isRun = false) :
    (run ++ parts.flatMap chars).takeWhile isBlank = run := by
  refine (span_append _ (List.all_eq_true.mpr hrun.2) ?_).1
  obtain - | ⟨p, parts⟩ := parts
  · simp
  obtain ⟨c, cs, hchars, hblank⟩ := (hparts p List.mem_cons_self).exists_chars
  have hnext : p.isRun = false := List.rel_of_isChain_cons_cons hchain rfl
  simp [hchars, hblank, hnext]

end TextPart

/-- Two cuts of a text that are greedy are the same. -/
theorem eq_of_isGreedy {ps qs : List TextPart}
    (hchars : ps.flatMap TextPart.chars = qs.flatMap TextPart.chars)
    (hps : ∀ p ∈ ps, p.IsProper) (hqs : ∀ q ∈ qs, q.IsProper)
    (hpchain : ps.IsChain fun p q => p.isRun = true → q.isRun = false)
    (hqchain : qs.IsChain fun p q => p.isRun = true → q.isRun = false)
    (hpgreedy : IsGreedy ps) (hqgreedy : IsGreedy qs) : ps = qs := by
  induction ps generalizing qs with
  | nil =>
    obtain - | ⟨q, qs⟩ := qs
    · rfl
    obtain ⟨c, cs, hq, -⟩ := (hqs q List.mem_cons_self).exists_chars
    simp [hq] at hchars
  | cons p ps ih =>
    obtain ⟨hp, hps'⟩ := List.forall_mem_cons.mp hps
    obtain ⟨c, cs, hpc, hpblank⟩ := hp.exists_chars
    obtain - | ⟨q, qs⟩ := qs
    · simp [hpc] at hchars
    obtain ⟨hq, hqs'⟩ := List.forall_mem_cons.mp hqs
    obtain ⟨d, ds, hqd, hqblank⟩ := hq.exists_chars
    have hfirst : c = d := by
      simpa [hpc, hqd] using congrArg List.head? hchars
    have hkind : p.isRun = q.isRun := by rw [← hpblank, hfirst, hqblank]
    have hsame : p = q := by
      by_cases hrun : p.isRun = true
      · obtain ⟨run, rfl⟩ := TextPart.exists_eq_blanks hrun
        obtain ⟨run', rfl⟩ := TextPart.exists_eq_blanks (hkind ▸ hrun)
        have hrun := TextPart.takeWhile_isBlank_run hp hps' hpchain
        have hrun' := TextPart.takeWhile_isBlank_run hq hqs' hqchain
        rw [List.flatMap_cons, List.flatMap_cons, TextPart.chars, TextPart.chars] at hchars
        rw [← hrun, ← hrun', hchars]
      · have hrun := Bool.eq_false_iff.mpr hrun
        have hread := hqgreedy.1 (hkind ▸ hrun)
        rw [← hchars] at hread
        exact (hpgreedy.1 hrun).unique hread hp hrun (List.prefix_append _ _)
    subst hsame
    rw [List.flatMap_cons, List.flatMap_cons] at hchars
    rw [ih (List.append_cancel_left hchars) hps' hqs' hpchain.tail hqchain.tail hpgreedy.2
      hqgreedy.2]

/-- A text has exactly one greedy cut. -/
theorem existsUnique_isGreedyCut (source : String) : ∃! parts, IsGreedyCut source parts := by
  have hsound : ∀ p ∈ pieces source.toList, p.Sound := fun p hp => sound_of_mem_pieces hp
  refine ⟨partsOf (pieces source.toList), ?_, fun parts h => ?_⟩
  · constructor
    case chars => rw [flatMap_chars_partsOf hsound, spelling_pieces]
    case proper => exact isProper_of_mem_partsOf hsound
    case runs => exact isChain_partsOf _
    case greedy => exact isGreedy_partsOf_pieces _
    case tokens => rw [map_token_lex, filterMap_token?_partsOf hsound]
    case diagnostics => exact map_subject_diagnosticsOf hsound 1
  · have hchars : parts.flatMap TextPart.chars =
        (partsOf (pieces source.toList)).flatMap TextPart.chars := by
      rw [h.chars, flatMap_chars_partsOf hsound, spelling_pieces]
    exact eq_of_isGreedy hchars h.proper (isProper_of_mem_partsOf hsound) h.runs
      (isChain_partsOf _) h.greedy (isGreedy_partsOf_pieces _)

end CommandScript
