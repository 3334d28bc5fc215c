import CommandScript.Proofs.FirstError
import CommandScript.Proofs.Lossless
import CommandScript.Proofs.Recovery
import CommandScript.Proofs.StrictReading

/-!
# Line numbers

A text has its lines from its line breaks, whatever these stand in: one in a string starts a new
line as well as one among blanks. `StartsOn` says on which line a part of a text starts, by the line
breaks in the parts before it. The lines that reading and parsing give all come from there
(`IsLined`): those of tokens and diagnostics, and through the tokens those of actions and errors.
Every text has parts that show this (`exists_isLined`), the same parts that show that nothing of it
is lost.
-/

namespace CommandScript

/-- The part number `i` of those that `pick` takes something from starts on `line`, one more than
the line breaks in the parts before it. If there are only `i` of these parts, the text ends on
`line`. -/
def StartsOn {α : Type} (pick : TextPart → Option α) (parts : List TextPart) (i line : Nat) :
    Prop :=
  ∃ front later, parts = front ++ later ∧ (front.filterMap pick).length = i ∧
    (∀ p ∈ later.head?, (pick p).isSome = true) ∧
    line = 1 + (front.flatMap TextPart.chars).count '\n'

/-- Parts of a text, and the lines of all that is read and parsed from it. The token at a position
starts on the line on which its part starts, and the end of input on the one on which the text
ends. -/
structure IsLined (source : String) (parts : List TextPart) : Prop where
  /-- The parts are the text, in order. -/
  chars : parts.flatMap TextPart.chars = source.toList
  proper : ∀ p ∈ parts, p.IsProper
  /-- The tokens are those of the parts in order, and then the end of input. -/
  map_token : (lex source).tokens.map Placed.token =
    parts.filterMap TextPart.token? ++ [.endOfInput]
  /-- The diagnostics are about parts, in order. -/
  map_subject : (lex source).diagnostics.map Diagnostic.subject =
    parts.filterMap TextPart.subject?
  tokens : ∀ i t, (lex source).tokens[i]? = some t → StartsOn TextPart.token? parts i t.line
  diagnostics : ∀ i d, (lex source).diagnostics[i]? = some d →
    StartsOn TextPart.subject? parts i d.line
  /-- Lines do not decrease along the tokens. -/
  increase : (lex source).tokens.Pairwise fun t t' => t.line ≤ t'.line
  /-- A number of 32 bits holds every line of a text that does not have too many. -/
  fits : source.toList.count '\n' < UInt32.size - 1 →
    (∀ t ∈ (lex source).tokens, t.line < UInt32.size) ∧
      ∀ d ∈ (lex source).diagnostics, d.line < UInt32.size
  /-- The actions of a strict parse are on the lines of their first tokens. -/
  parsed : ∀ g b, parseSource g source = .ok b → ∃ n pos rule,
    IsReading g (lex source).tokens 0 n pos rule ∧
      b.actions = actionsOf (lex source).tokens n pos rule ∧
      ∀ i < n, StartsOn TextPart.token? parts (pos i)
        ((rule i).actionAt (lex source).tokens (pos i)).line
  /-- The error of a strict parse is on the line of the token at its position. -/
  failed : ∀ g e, parseSource g source = .error e → StartsOn TextPart.token? parts e.position e.line
  /-- So are the errors of a recovering parse, and its actions are on the lines of the first tokens
  of their stretches. -/
  recovered : ∀ g limit, ∃ ss stop fatal,
    IsTiling g (lex source).tokens limit 0 (run g limit ⟨0, (lex source).tokens⟩) ss stop fatal ∧
      (parseRecovering g limit (lex source).tokens).1.actions =
        Stretch.actions (lex source).tokens ss ∧
      (∀ p r, Stretch.taken p r ∈ ss →
        StartsOn TextPart.token? parts p (r.actionAt (lex source).tokens p).line) ∧
      ∀ e ∈ (parseRecovering g limit (lex source).tokens).2,
        StartsOn TextPart.token? parts e.position e.line

/-! ## The pieces before a token or a diagnostic -/

section

variable {ps : List Piece} {line i : Nat}

/-- A token is on the line that the line breaks in the pieces before it lead to. -/
theorem exists_of_getElem?_tokensOf {t : Placed} (h : (tokensOf line ps)[i]? = some t) :
    ∃ front later, ps = front ++ later ∧ (front.filterMap Piece.token?).length = i ∧
      (∀ p ∈ later.head?, p.token?.isSome = true) ∧ t.line = line + lineBreaksOf front := by
  induction ps generalizing line i with
  | nil =>
    rw [tokensOf, List.getElem?_singleton] at h
    split at h
    · next hi =>
      cases h
      exact ⟨[], [], rfl, hi.symm, by simp, rfl⟩
    · cases h
  | cons p ps ih =>
    have hlater {j : Nat} (hj : (tokensOf (line + p.lineBreaks) ps)[j]? = some t) :
        ∃ front later, p :: ps = p :: front ++ later ∧ (front.filterMap Piece.token?).length = j ∧
          (∀ q ∈ later.head?, q.token?.isSome = true) ∧
          t.line = line + lineBreaksOf (p :: front) := by
      obtain ⟨front, later, rfl, hcount, hhead, hline⟩ := ih hj
      refine ⟨front, later, rfl, hcount, hhead, ?_⟩
      rw [hline, lineBreaksOf_cons, Nat.add_assoc]
    rw [tokensOf] at h
    split at h
    · next t' ht =>
      cases i with
      | zero =>
        cases h
        exact ⟨[], p :: ps, rfl, rfl, by simp [ht], rfl⟩
      | succ i =>
        obtain ⟨front, later, hps, hcount, hrest⟩ := hlater h
        exact ⟨p :: front, later, hps, by simp [ht, hcount], hrest⟩
    · next ht =>
      obtain ⟨front, later, hps, hcount, hrest⟩ := hlater h
      exact ⟨p :: front, later, hps, by simp [ht, hcount], hrest⟩

/-- A diagnostic is on the line that the line breaks in the pieces before it lead to. -/
theorem exists_of_getElem?_diagnosticsOf {d : Diagnostic}
    (h : (diagnosticsOf line ps)[i]? = some d) :
    ∃ front p later, ps = front ++ p :: later ∧ (diagnosticsOf line front).length = i ∧
      p.diagnostic? (line + lineBreaksOf front) = some d := by
  induction ps generalizing line i with
  | nil => cases h
  | cons p ps ih =>
    have hlater {j : Nat} (hj : (diagnosticsOf (line + p.lineBreaks) ps)[j]? = some d) :
        ∃ front q later, p :: ps = p :: front ++ q :: later ∧
          (diagnosticsOf (line + p.lineBreaks) front).length = j ∧
          q.diagnostic? (line + lineBreaksOf (p :: front)) = some d := by
      obtain ⟨front, q, later, rfl, hcount, hq⟩ := ih hj
      refine ⟨front, q, later, rfl, hcount, ?_⟩
      rwa [lineBreaksOf_cons, ← Nat.add_assoc]
    rw [diagnosticsOf] at h
    split at h
    · next d' hd =>
      cases i with
      | zero =>
        cases h
        exact ⟨[], p, ps, rfl, rfl, hd⟩
      | succ i =>
        obtain ⟨front, q, later, hps, hcount, hq⟩ := hlater h
        exact ⟨p :: front, q, later, hps, by simp [diagnosticsOf, hd, hcount], hq⟩
    · next hd =>
      obtain ⟨front, q, later, hps, hcount, hq⟩ := hlater h
      exact ⟨p :: front, q, later, hps, by simp [diagnosticsOf, hd, hcount], hq⟩

theorem Piece.line_of_diagnostic? {p : Piece} {d : Diagnostic}
    (h : p.diagnostic? line = some d) : d.line = line := by
  cases p with
  | unknown c =>
    cases h
    rfl
  | quoted q cs closed =>
    cases closed with
    | true => cases h
    | false =>
      cases h
      rfl
  | _ => cases h

/-- No token comes before the line on which the pieces start. -/
theorem le_line_of_mem_tokensOf {t : Placed} (h : t ∈ tokensOf line ps) : line ≤ t.line := by
  obtain ⟨i, hi⟩ := List.getElem?_of_mem h
  obtain ⟨front, later, -, -, -, hline⟩ := exists_of_getElem?_tokensOf hi
  omega

theorem pairwise_line_tokensOf (line : Nat) (ps : List Piece) :
    (tokensOf line ps).Pairwise fun t t' => t.line ≤ t'.line := by
  induction ps generalizing line with
  | nil => exact List.pairwise_singleton _ _
  | cons p ps ih =>
    rw [tokensOf]
    split
    · refine List.pairwise_cons.mpr ⟨fun t ht => ?_, ih _⟩
      exact Nat.le_of_add_right_le (le_line_of_mem_tokensOf ht)
    · exact ih _

end

/-! ## From pieces to parts -/

theorem joinPart_append {p : TextPart} {front later : List TextPart}
    (h : ∀ q ∈ later.head?, q.isRun = false) :
    joinPart p (front ++ later) = joinPart p front ++ later := by
  cases front with
  | nil =>
    cases later with
    | nil => simp
    | cons q later =>
      have hq : q.isRun = false := h q rfl
      cases q with
      | blanks run => cases hq
      | _ => cases p <;> rfl
  | cons r front => cases p <;> cases r <;> rfl

/-- No run of blanks goes on past a piece that is no blank. -/
theorem partsOf_append (front : List Piece) {later : List Piece}
    (h : ∀ q ∈ (partsOf later).head?, q.isRun = false) :
    partsOf (front ++ later) = partsOf front ++ partsOf later := by
  induction front with
  | nil => rfl
  | cons p ps ih => rw [List.cons_append, partsOf_cons, ih, joinPart_append h, partsOf_cons]

theorem partsOf_cons_of_isRun {p : Piece} (h : (TextPart.ofPiece p).isRun = false)
    (ps : List Piece) : partsOf (p :: ps) = .ofPiece p :: partsOf ps := by
  rw [partsOf_cons]
  cases hp : TextPart.ofPiece p with
  | blanks run =>
    rw [hp] at h
    cases h
  | _ => rfl

section

variable {α : Type} {pick : TextPart → Option α}

/-- Where the pieces fall into two, the first of the second half starts a part if `pick` takes
something from it, but nothing from blanks. -/
theorem startsOn_append (hblanks : ∀ run, pick (.blanks run) = none)
    {front later : List Piece} (hfront : ∀ p ∈ front, p.Sound)
    (hlater : ∀ p ∈ later.head?, (pick (.ofPiece p)).isSome = true) :
    StartsOn pick (partsOf (front ++ later)) ((partsOf front).filterMap pick).length
      (1 + lineBreaksOf front) := by
  have hrun (q : TextPart) (hq : (pick q).isSome = true) : q.isRun = false := by
    cases q with
    | blanks run =>
      rw [hblanks run] at hq
      cases hq
    | _ => rfl
  have hhead : ∀ q ∈ (partsOf later).head?, (pick q).isSome = true := by
    cases later with
    | nil => simp [partsOf]
    | cons p later =>
      have hp := hlater p rfl
      rw [partsOf_cons_of_isRun (hrun _ hp)]
      simpa using hp
  refine ⟨partsOf front, partsOf later, partsOf_append front fun q hq => hrun q (hhead q hq), rfl,
    hhead, ?_⟩
  rw [flatMap_chars_partsOf hfront, lineBreaksOf]

theorem StartsOn.line_le {parts : List TextPart} {i line : Nat} (h : StartsOn pick parts i line) :
    line ≤ 1 + (parts.flatMap TextPart.chars).count '\n' := by
  obtain ⟨front, later, rfl, -, -, rfl⟩ := h
  rw [List.flatMap_append, List.count_append]
  omega

end

/-! ## The lines of tokens and diagnostics -/

section

variable {source : String} {i : Nat}

theorem startsOn_of_getElem?_tokens {t : Placed} (h : (lex source).tokens[i]? = some t) :
    StartsOn TextPart.token? (partsOf (pieces source.toList)) i t.line := by
  obtain ⟨front, later, hps, rfl, hhead, hline⟩ := exists_of_getElem?_tokensOf h
  have hsound : ∀ p ∈ front ++ later, p.Sound := fun p hp => sound_of_mem_pieces (hps ▸ hp)
  have hfront : ∀ p ∈ front, p.Sound := fun p hp => hsound p (List.mem_append_left later hp)
  have hlater : ∀ p ∈ later.head?, (TextPart.ofPiece p).token?.isSome = true := by
    intro p hp
    have hmem : p ∈ front ++ later := List.mem_append_right front (List.mem_of_mem_head? hp)
    rw [TextPart.token?_ofPiece (hsound p hmem)]
    exact hhead p hp
  rw [hps, hline, ← filterMap_token?_partsOf hfront]
  exact startsOn_append (fun _ => rfl) hfront hlater

theorem startsOn_of_getElem?_diagnostics {d : Diagnostic}
    (h : (lex source).diagnostics[i]? = some d) :
    StartsOn TextPart.subject? (partsOf (pieces source.toList)) i d.line := by
  obtain ⟨front, p, later, hps, rfl, hd⟩ := exists_of_getElem?_diagnosticsOf h
  have hsound : ∀ q ∈ front ++ p :: later, q.Sound := fun q hq => sound_of_mem_pieces (hps ▸ hq)
  have hfront : ∀ q ∈ front, q.Sound := fun q hq => hsound q (List.mem_append_left _ hq)
  have hlater : ∀ q ∈ (p :: later).head?, (TextPart.ofPiece q).subject?.isSome = true := by
    intro q hq
    cases hq
    rw [TextPart.subject?_ofPiece (hsound p (by simp)) _, hd]
    rfl
  have hcount : (diagnosticsOf 1 front).length =
      ((partsOf front).filterMap TextPart.subject?).length := by
    rw [← map_subject_diagnosticsOf hfront 1, List.length_map]
  rw [hps, Piece.line_of_diagnostic? hd, hcount]
  exact startsOn_append (fun _ => rfl) hfront hlater

theorem chars_partsOf_pieces (source : String) :
    (partsOf (pieces source.toList)).flatMap TextPart.chars = source.toList := by
  rw [flatMap_chars_partsOf fun _ => sound_of_mem_pieces, spelling_pieces]

/-- No token is on a line after the last one. -/
theorem line_le_of_mem_tokens {t : Placed} (ht : t ∈ (lex source).tokens) :
    t.line ≤ 1 + source.toList.count '\n' := by
  obtain ⟨i, hi⟩ := List.getElem?_of_mem ht
  rw [← chars_partsOf_pieces source]
  exact (startsOn_of_getElem?_tokens hi).line_le

/-- Neither is a diagnostic. -/
theorem line_le_of_mem_diagnostics {d : Diagnostic} (hd : d ∈ (lex source).diagnostics) :
    d.line ≤ 1 + source.toList.count '\n' := by
  obtain ⟨i, hi⟩ := List.getElem?_of_mem hd
  rw [← chars_partsOf_pieces source]
  exact (startsOn_of_getElem?_diagnostics hi).line_le

/-- A number of 32 bits holds the line of every token and diagnostic of a text that does not have too
many lines. -/
theorem lines_lt_size (h : source.toList.count '\n' < UInt32.size - 1) :
    (∀ t ∈ (lex source).tokens, t.line < UInt32.size) ∧
      ∀ d ∈ (lex source).diagnostics, d.line < UInt32.size := by
  constructor
  · intro t ht
    have hle := line_le_of_mem_tokens ht
    omega
  · intro d hd
    have hle := line_le_of_mem_diagnostics hd
    omega

end

/-! ## The lines of errors -/

/-- Stretches in a row start before the end position. -/
theorem Tiles.start_lt {ts : List Placed} {p q : Nat} {ss : List Stretch} (h : Tiles ts p ss q) :
    ∀ s ∈ ss, s.start < endPosition ts := by
  induction ss generalizing p with
  | nil => exact fun s hs => absurd hs List.not_mem_nil
  | cons s ss ih =>
    obtain ⟨rfl, hlt, hss⟩ := h
    exact List.forall_mem_cons.mpr ⟨hlt, ih hss⟩

/-- An error of a run is on the line of the token at its position. -/
theorem IsTiling.line_of_mem_errors {g : Grammar} {ts : List Placed} {limit p q : Nat}
    {ss : List Stretch} {r : Run} {fatal : Option ParseError}
    (h : IsTiling g ts limit p r ss q fatal) {e : ParseError} (he : e ∈ r.errors) :
    e.position < endPosition ts ∧ e.line = (tokenAt ts e.position).line := by
  refine ⟨h.errors_increase.1 e he, ?_⟩
  rw [h.errors_eq] at he
  rcases List.mem_append.mp he with he | he
  · obtain ⟨x, hx, hxe⟩ := List.mem_filterMap.mp he
    obtain ⟨s, -, rfl⟩ := List.mem_map.mp hx
    cases s with
    | taken start rule => cases hxe
    | skipped start closest =>
      cases hxe
      rfl
  · obtain ⟨q', -, -, -, rfl⟩ := h.fatal_at e (by simpa using he)
    rfl

theorem startsOn_tokenAt {source : String} {p : Nat} (hp : p < endPosition (lex source).tokens) :
    StartsOn TextPart.token? (partsOf (pieces source.toList)) p
      (tokenAt (lex source).tokens p).line :=
  startsOn_of_getElem?_tokens (getElem?_eq_tokenAt hp)

theorem startsOn_of_mem_errors {g : Grammar} {limit : Nat} {source : String} {e : ParseError}
    (he : e ∈ (run g limit ⟨0, (lex source).tokens⟩).errors) :
    StartsOn TextPart.token? (partsOf (pieces source.toList)) e.position e.line := by
  obtain ⟨ss, stop, fatal, h⟩ := exists_isTiling_run g (lex source).tokens limit
  obtain ⟨hlt, hline⟩ := h.line_of_mem_errors he
  rw [hline]
  exact startsOn_tokenAt hlt

/-! ## All lines of a text -/

/-- Every text has parts that show where the lines of its tokens, diagnostics, actions and errors
come from. -/
theorem exists_isLined (source : String) : ∃ parts, IsLined source parts := by
  have hsound : ∀ p ∈ pieces source.toList, p.Sound := fun p hp => sound_of_mem_pieces hp
  refine ⟨partsOf (pieces source.toList), ?_⟩
  constructor
  case chars => exact chars_partsOf_pieces source
  case proper => exact isProper_of_mem_partsOf hsound
  case map_token => rw [map_token_lex, filterMap_token?_partsOf hsound]
  case map_subject => exact map_subject_diagnosticsOf hsound 1
  case tokens => exact fun i t => startsOn_of_getElem?_tokens
  case diagnostics => exact fun i d => startsOn_of_getElem?_diagnostics
  case increase => exact pairwise_line_tokensOf 1 _
  case fits => exact lines_lt_size
  case parsed =>
    intro g b hb
    obtain ⟨n, pos, rule, hread, hactions⟩ := exists_isReading_of_ok hb
    refine ⟨n, pos, rule, hread, hactions, fun i hi => startsOn_tokenAt ?_⟩
    have hlt := hread.lt i hi
    have hnext := hread.next i hi
    omega
  case failed =>
    intro g e he
    rw [parseSource, parse, Run.result_eq_error_iff, ← head?_errors_run g 1] at he
    exact startsOn_of_mem_errors (List.mem_of_mem_head? he)
  case recovered =>
    intro g limit
    obtain ⟨ss, stop, fatal, h⟩ := exists_isTiling_run g (lex source).tokens limit
    exact ⟨ss, stop, fatal, h, h.actions_eq,
      fun p r hr => startsOn_tokenAt (h.tiles.start_lt _ hr), fun e => startsOn_of_mem_errors⟩

end CommandScript
