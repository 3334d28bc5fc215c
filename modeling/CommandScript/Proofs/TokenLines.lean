import Mathlib.Data.List.Nodup
import CommandScript.CommandLine.Execute
import CommandScript.Proofs.TokenText

/-!
# The lines of a token listing

A token is listed as its kind and its text between fixed characters. The name of a kind has no
colon, so the first colon ends it, and the listed form tells the token (`Token.listing_injective`).
The text is written as it stands in the source, and the text of a string may hold line ends; no
other token has one (`kind_of_mem_newline`). So the listing of a text has one line for each
token exactly if no string of the text goes on over a line end (`IsUnbroken`), and then it tells the
tokens (`lines_of_listing`). A listing of broken strings may look like that of other tokens
(`not_forall_one_line_each`).
-/

namespace CommandScript

/-! ## Texts in lines -/

/-- A text that consists of these lines, each with a line end after it. -/
def IsInLines (text : String) (lines : List String) : Prop :=
  text = asLines lines ∧ ∀ l ∈ lines, '\n' ∉ l.toList

theorem toList_asLines_nil : (asLines []).toList = [] :=
  rfl

theorem toList_asLines_cons (l : String) (ls : List String) :
    (asLines (l :: ls)).toList = l.toList ++ '\n' :: (asLines ls).toList := by
  simp [asLines, asLine, String.join_cons]

/-- Where a character stands for the first time, a text is cut in one way only. -/
theorem append_cons_inj {x : Char} {l l' r r' : List Char} (hl : x ∉ l) (hl' : x ∉ l')
    (h : l ++ x :: r = l' ++ x :: r') : l = l' ∧ r = r' := by
  have hall {cs : List Char} (hcs : x ∉ cs) : cs.all (· != x) = true :=
    List.all_eq_true.mpr fun c hc => bne_iff_ne.mpr fun heq => hcs (heq ▸ hc)
  obtain ⟨htake, hdrop⟩ := span_append (x :: r) (hall hl) (by simp)
  obtain ⟨htake', hdrop'⟩ := span_append (x :: r') (hall hl') (by simp)
  rw [h] at htake hdrop
  exact ⟨htake.symm.trans htake', (List.cons.inj (hdrop.symm.trans hdrop')).2⟩

/-- A text consists of its lines in one way only. -/
theorem IsInLines.unique {text : String} {ls ls' : List String} (h : IsInLines text ls)
    (h' : IsInLines text ls') : ls = ls' := by
  obtain ⟨rfl, hls⟩ := h
  obtain ⟨heq, hls'⟩ := h'
  induction ls generalizing ls' with
  | nil =>
    cases ls' with
    | nil => rfl
    | cons l' ls' =>
      have hchars := congrArg String.toList heq
      rw [toList_asLines_cons, toList_asLines_nil] at hchars
      exact absurd hchars.symm (by simp)
  | cons l ls ih =>
    have hchars := congrArg String.toList heq
    rw [toList_asLines_cons] at hchars
    cases ls' with
    | nil => exact absurd hchars (by simp [toList_asLines_nil])
    | cons l' ls' =>
      obtain ⟨hl, hls⟩ := List.forall_mem_cons.mp hls
      obtain ⟨hl', hls'⟩ := List.forall_mem_cons.mp hls'
      rw [toList_asLines_cons] at hchars
      obtain ⟨hhead, htail⟩ := append_cons_inj hl hl' hchars
      rw [String.toList_inj.mp hhead, ih hls (String.toList_inj.mp htail) hls']

theorem count_asLines (ls : List String) :
    (asLines ls).toList.count '\n' = ls.length + (ls.flatMap String.toList).count '\n' := by
  induction ls with
  | nil => rfl
  | cons l ls ih =>
    rw [toList_asLines_cons, List.count_append, List.count_cons_self, ih, List.length_cons,
      List.flatMap_cons, List.count_append]
    omega

/-- A text made of lines has as many line ends as lines exactly if no line has one. -/
theorem count_asLines_eq_length_iff (ls : List String) :
    (asLines ls).toList.count '\n' = ls.length ↔ ∀ l ∈ ls, '\n' ∉ l.toList := by
  rw [count_asLines, Nat.add_eq_left, List.count_eq_zero, List.mem_flatMap]
  exact ⟨fun h l hl hnew => h ⟨l, hl, hnew⟩, fun h ⟨l, hl, hnew⟩ => h l hl hnew⟩

/-! ## Listed tokens -/

namespace Kind

theorem colon_notMem_label (k : Kind) : ':' ∉ k.label.toList := by
  cases k <;> decide

theorem newline_notMem_label (k : Kind) : '\n' ∉ k.label.toList := by
  cases k <;> decide

theorem label_injective : Function.Injective label := by
  have hnodup : (all.map label).Nodup := by decide +kernel
  exact fun k k' h => List.inj_on_of_nodup_map hnodup (mem_all k) (mem_all k') h

end Kind

namespace Token

theorem toList_listing (t : Token) :
    t.listing.toList = '[' :: (t.kind.label.toList ++ ':' :: ' ' :: (t.text.toList ++ [']'])) := by
  simp [listing]

/-- The listed form of a token tells its kind and its text. -/
theorem listing_injective : Function.Injective listing := by
  intro t t' h
  have hchars := congrArg String.toList h
  rw [toList_listing, toList_listing] at hchars
  obtain ⟨hlabel, htext⟩ := append_cons_inj t.kind.colon_notMem_label t'.kind.colon_notMem_label
    (List.cons.inj hchars).2
  have hkind := Kind.label_injective (String.toList_inj.mp hlabel)
  have htext := List.append_cancel_right (List.cons.inj htext).2
  obtain ⟨k, text⟩ := t
  rw [Token.mk.injEq]
  exact ⟨hkind, String.toList_inj.mp htext⟩

/-- A listed token goes on over a line end exactly if its text does. -/
theorem newline_notMem_listing_iff (t : Token) :
    '\n' ∉ t.listing.toList ↔ '\n' ∉ t.text.toList := by
  simp [toList_listing, t.kind.newline_notMem_label]

end Token

theorem isForeign_newline : IsForeign '\n' :=
  ⟨rfl, by decide, fun k s hs => by cases k <;> cases hs <;> decide⟩

/-! ## The listing of a text -/

/-- No token of a text goes on over a line end. -/
def IsUnbroken (source : String) : Prop :=
  ∀ t ∈ (lex source).tokens, '\n' ∉ t.token.text.toList

instance (source : String) : Decidable (IsUnbroken source) :=
  inferInstanceAs (Decidable (∀ t ∈ (lex source).tokens, '\n' ∉ t.token.text.toList))

/-- The listed tokens of a text, in their order. -/
def tokenLines (source : String) : List String :=
  (lex source).tokens.map (·.token.listing)

/-- Of the tokens of a text, only a string goes on over a line end. -/
theorem kind_of_mem_newline {source : String} {t : Placed} (h : t ∈ (lex source).tokens)
    (hnew : '\n' ∈ t.token.text.toList) : t.token.kind = .str := by
  rcases eq_endOfInput_or_isLexeme h with ht | ⟨cs, hcs⟩
  · rw [ht] at hnew
    exact absurd hnew (by decide)
  · exact hcs.kind_of_isForeign isForeign_newline hnew

theorem isUnbroken_iff {source : String} :
    IsUnbroken source ↔ ∀ l ∈ tokenLines source, '\n' ∉ l.toList := by
  rw [tokenLines, List.forall_mem_map]
  exact forall₂_congr fun t _ => t.token.newline_notMem_listing_iff.symm

theorem isInLines_iff_isUnbroken {source : String} :
    IsInLines (asLines (tokenLines source)) (tokenLines source) ↔ IsUnbroken source :=
  (and_iff_right rfl).trans isUnbroken_iff.symm

theorem count_asLines_iff_isUnbroken {source : String} :
    (asLines (tokenLines source)).toList.count '\n' = (lex source).tokens.length ↔
      IsUnbroken source := by
  have hlength : (tokenLines source).length = (lex source).tokens.length := List.length_map _
  rw [isUnbroken_iff, ← hlength]
  exact count_asLines_eq_length_iff _

/-- The program is asked to list the tokens of a file as a text, and the file can be read. -/
def ListsTokens (files : String → FileText) (args : List String) (source : String) : Prop :=
  ∃ s file, invocation args = .run s (.tokens file) ∧ s.output = .text ∧ files file = .ok source

theorem ListsTokens.stdout_eq {files : String → FileText} {args : List String} {source : String}
    (h : ListsTokens files args source) :
    (execute files args).stdout = asLines (tokenLines source) := by
  obtain ⟨s, file, hargs, hout, hfile⟩ := h
  simp only [execute, hargs, Invocation.execute, executeCommand, hfile, executeTokens, hout]
  rfl

/-- A listing is made of the listed tokens. It has as many lines as there are tokens, and each line
is a token, exactly if no token goes on over a line end, which only a string can do. Texts of which
this is so have the same listing only if they have the same tokens. -/
theorem lines_of_listing {files : String → FileText} {args : List String} {source : String}
    (h : ListsTokens files args source) :
    let out := (execute files args).stdout
    out = asLines (tokenLines source) ∧
      (∀ t ∈ (lex source).tokens, '\n' ∈ t.token.text.toList → t.token.kind = .str) ∧
      (out.toList.count '\n' = (lex source).tokens.length ↔ IsUnbroken source) ∧
      (IsInLines out (tokenLines source) ↔ IsUnbroken source) ∧
      ∀ files' args' source', ListsTokens files' args' source' →
        IsUnbroken source → IsUnbroken source' → (execute files' args').stdout = out →
        (lex source').tokens.map Placed.token = (lex source).tokens.map Placed.token := by
  intro out
  have hout : out = asLines (tokenLines source) := h.stdout_eq
  refine ⟨hout, fun t => kind_of_mem_newline, hout ▸ count_asLines_iff_isUnbroken,
    hout ▸ isInLines_iff_isUnbroken, fun files' args' source' h' hu hu' heq => ?_⟩
  have hlines := isInLines_iff_isUnbroken.mpr hu
  have hlines' := isInLines_iff_isUnbroken.mpr hu'
  rw [← h'.stdout_eq, heq, hout] at hlines'
  have hlisted := hlines'.unique hlines
  refine List.map_injective_iff.mpr Token.listing_injective ?_
  rw [List.map_map, List.map_map]
  exact hlisted

/-- Two files with one listing: a string over two lines, and two strings. -/
def quotedFiles (file : String) : FileText :=
  if file = "broken.cmd" then .ok "'a]\n[STRING: b'" else .ok "'a' 'b'"

theorem listsTokens_whole : ListsTokens quotedFiles ["tokens", "whole.cmd"] "'a' 'b'" :=
  ⟨_, "whole.cmd", rfl, rfl, rfl⟩

theorem listsTokens_broken :
    ListsTokens quotedFiles ["tokens", "broken.cmd"] "'a]\n[STRING: b'" :=
  ⟨_, "broken.cmd", rfl, rfl, rfl⟩

theorem lines_of_listing_whole :
    let out := (execute quotedFiles ["tokens", "whole.cmd"]).stdout
    ListsTokens quotedFiles ["tokens", "whole.cmd"] "'a' 'b'" ∧ IsUnbroken "'a' 'b'" ∧
      out.toList.count '\n' = 3 ∧ IsInLines out ["[STRING: a]", "[STRING: b]", "[EOF: <EOF>]"] := by
  have hunbroken : IsUnbroken "'a' 'b'" := by decide +kernel
  have hlength : (lex "'a' 'b'").tokens.length = 3 := by decide +kernel
  have hlisted : tokenLines "'a' 'b'" = ["[STRING: a]", "[STRING: b]", "[EOF: <EOF>]"] := by
    decide +kernel
  obtain ⟨-, -, hcount, hlines, -⟩ := lines_of_listing listsTokens_whole
  exact ⟨listsTokens_whole, hunbroken, (hcount.mpr hunbroken).trans hlength,
    hlisted ▸ hlines.mpr hunbroken⟩

/-- One string over two lines is listed as two strings are, on three lines. -/
theorem not_forall_one_line_each :
    (¬∀ files args source, ListsTokens files args source →
        (execute files args).stdout.toList.count '\n' = (lex source).tokens.length) ∧
      ¬∀ files args source files' args' source', ListsTokens files args source →
        ListsTokens files' args' source' →
        (execute files args).stdout = (execute files' args').stdout →
        (lex source).tokens.map Placed.token = (lex source').tokens.map Placed.token := by
  constructor
  · intro h
    exact absurd (h _ _ _ listsTokens_broken) (by decide +kernel)
  · intro h
    have htokens := h _ _ _ _ _ _ listsTokens_broken listsTokens_whole (by decide +kernel)
    exact absurd htokens (by decide +kernel)

end CommandScript
