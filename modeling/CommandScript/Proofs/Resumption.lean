import CommandScript.Proofs.Relocation
import CommandScript.Proofs.Requests

/-!
# Recovery starts afresh

A recovering run that skips a token takes nothing along. Up to its first error it is the strict run,
and from the next token on it is a run of its own, which may record one error less
(`strictRun_stopped`). A run reads the tokens from its cursor on, and it only copies the position of
the cursor into errors (`run_shift`). So what a recovering parse gives after its first error is what
a parse of the tokens behind the skipped one gives, with the positions in the errors moved
(`parseRecovering_resumes`).
-/

namespace CommandScript

variable {g : Grammar} {c : Cursor} {e : ParseError}

/-- A strict run that fails, but not with a malformed number, has stopped before the end at a place
where no rule matches. A recovering run that may record a second error takes the same steps, and
then those of a run from the next token on, which may record one error less. -/
theorem strictRun_stopped (h : (strictRun g c).errors = [e]) (he : e.isFatal = false) :
    (strictRun g c).cursor.atEnd = false ∧
      (∃ misses, e = noRuleAt (strictRun g c).cursor misses) ∧
      ∀ n, ¬n ≤ 1 → (run g n c).steps =
        (strictRun g c).steps ++ (run g (n - 1) (strictRun g c).cursor.advance).steps := by
  induction c using strictRun.induct (g := g) with
  | case1 c hc =>
    rw [strictRun_of_atEnd hc] at h
    cases h
  | case2 c hc tried action d ho ih =>
    have hc := Bool.eq_false_iff.mpr hc
    have hstrict : strictRun g c = (strictRun g d).cons (.matched tried.misses action) := by
      rw [strictRun_of_not_atEnd hc, ho]
    rw [hstrict, Run.errors_cons] at h
    obtain ⟨hend, herror, hsteps⟩ := ih h
    rw [hstrict]
    refine ⟨hend, herror, fun n hn => ?_⟩
    rw [run_of_matched hc ho]
    exact congrArg (_ :: ·) (hsteps n hn)
  | case3 c hc tried d ho =>
    rw [strictRun_of_not_atEnd (Bool.eq_false_iff.mpr hc), ho] at h
    -- the error of a malformed number is fatal
    cases h
    cases he
  | case4 c hc tried ho =>
    have hc := Bool.eq_false_iff.mpr hc
    rw [strictRun_of_not_atEnd hc, ho] at h ⊢
    cases h
    refine ⟨hc, ⟨_, rfl⟩, fun n hn => ?_⟩
    rw [run_of_unmatched hc ho hn]
    rfl

/-- Off the end of input, the next cursor stands where a cursor before the later tokens would stand,
but for its position. -/
theorem Cursor.IsIn.advance_eq_shift {ts : List Placed} (h : c.IsIn ts) (hc : c.atEnd = false) :
    c.advance = Cursor.shift (c.position + 1) ⟨0, ts.drop (c.position + 1)⟩ := by
  obtain ⟨t, rest, -, ha⟩ := Cursor.advance_of_not_atEnd hc
  have hrest := h.advance
  rw [ha, IsIn] at hrest
  rw [ha, shift, Nat.zero_add, ← hrest]

/-- A run from the same tokens at a later position gives the same actions, and the same errors at
later positions. -/
theorem run_shift (g : Grammar) (n k : Nat) (c : Cursor) :
    (run g n (c.shift k)).block.actions = (run g n c).block.actions ∧
      (run g n (c.shift k)).errors = (run g n c).errors.map (ParseError.relocate id (· + k)) := by
  obtain ⟨hactions, herrors⟩ := ((isRelocation_shift k).simulation g).run_eq n c _ rfl
  have hid : Action.relocate id = id := rfl
  rw [hid, List.map_id] at hactions
  exact ⟨hactions, herrors⟩

/-- If a strict parse fails because no rule matches at position `p`, then a recovering parse that
may record more than one error has the actions and the error of the strict one first. Then it has
those of a parse of the tokens from `p + 1` on, with every position moved by `p + 1`. -/
theorem parseRecovering_resumes (g : Grammar) (ts : List Placed) {n p line : Nat} {found : Token}
    {closest : Option String} (hn : 2 ≤ n)
    (h : parse g ts = .error (.noRule found p line closest)) :
    let before := (strictRun g ⟨0, ts⟩).block.actions
    let afresh := parseRecovering g (n - 1) (ts.drop (p + 1))
    parseRecovering g 1 ts = (⟨before⟩, [.noRule found p line closest]) ∧
      parseRecovering g n ts = (⟨before ++ afresh.1.actions⟩,
        .noRule found p line closest :: afresh.2.map (ParseError.relocate id (· + (p + 1)))) := by
  rw [parse, Run.result_eq_error_iff] at h
  have hsingle := (exists_front_of_head?_errors h).1
  obtain ⟨hend, ⟨misses, he⟩, hsteps⟩ := strictRun_stopped hsingle rfl
  have hreaches : Cursor.Reaches ⟨0, ts⟩ (strictRun g ⟨0, ts⟩).cursor := by
    rw [strictRun_eq_run_one]
    exact reaches_run g 1 _
  have hposition : (strictRun g ⟨0, ts⟩).cursor.position = p :=
    (congrArg ParseError.position he).symm
  have hnext : (strictRun g ⟨0, ts⟩).cursor.advance =
      Cursor.shift (p + 1) ⟨0, ts.drop (p + 1)⟩ := by
    rw [← hposition]
    exact (hreaches.isIn rfl).advance_eq_shift hend
  obtain ⟨hactions, herrors⟩ := run_shift g (n - 1) (p + 1) ⟨0, ts.drop (p + 1)⟩
  have hsteps := hsteps n (Nat.not_le_of_lt hn)
  rw [hnext] at hsteps
  constructor
  · rw [parseRecovering, ← strictRun_eq_run_one, hsingle]
  · have hblock : (run g n ⟨0, ts⟩).block.actions = (strictRun g ⟨0, ts⟩).block.actions ++
        (run g (n - 1) ⟨0, ts.drop (p + 1)⟩).block.actions := by
      rw [← hactions, Run.block, hsteps, List.filterMap_append]
      rfl
    have hall : (run g n ⟨0, ts⟩).errors = .noRule found p line closest ::
        (run g (n - 1) ⟨0, ts.drop (p + 1)⟩).errors.map (ParseError.relocate id (· + (p + 1))) := by
      rw [Run.errors_of_steps_eq hsteps, hsingle, ← herrors]
      rfl
    rw [parseRecovering, hall]
    exact congrArg (fun actions => (Block.mk actions, _)) hblock

/-- A rule of a keyword and an argument. -/
def callRule : Rule :=
  ⟨"call", [.keyword "call", .argument "whom"]⟩

/-- Matches of `callRule`, of which the second stands behind a word that no rule takes. The last
one is broken off by a malformed number. -/
def callBroken : List Placed :=
  [⟨⟨.word, "call"⟩, 1⟩, ⟨⟨.word, "home"⟩, 1⟩, ⟨⟨.word, "now"⟩, 2⟩, ⟨⟨.word, "call"⟩, 3⟩,
    ⟨⟨.var, "maple"⟩, 3⟩, ⟨⟨.word, "call"⟩, 4⟩, ⟨⟨.number, "2x"⟩, 4⟩]

theorem parseRecovering_resumes_callBroken :
    let before := (strictRun ⟨[callRule]⟩ ⟨0, callBroken⟩).block.actions
    let afresh := parseRecovering ⟨[callRule]⟩ 2 (callBroken.drop 3)
    2 ≤ 3 ∧ parse ⟨[callRule]⟩ callBroken = .error (.noRule ⟨.word, "now"⟩ 2 2 none) ∧
      before.length = 1 ∧ afresh.1.actions.length = 1 ∧ afresh.2 = [.invalidNumber "2x" 3 4] ∧
      parseRecovering ⟨[callRule]⟩ 1 callBroken =
        (⟨before⟩, [.noRule ⟨.word, "now"⟩ 2 2 none]) ∧
      parseRecovering ⟨[callRule]⟩ 3 callBroken = (⟨before ++ afresh.1.actions⟩,
        .noRule ⟨.word, "now"⟩ 2 2 none ::
          afresh.2.map (ParseError.relocate id (· + (2 + 1)))) := by
  have hn : 2 ≤ 3 := by decide
  have herror : parse ⟨[callRule]⟩ callBroken = .error (.noRule ⟨.word, "now"⟩ 2 2 none) := by
    rw [parse, Run.result_eq_error_iff]
    decide +kernel
  exact ⟨hn, herror, by decide +kernel, by decide +kernel, by decide +kernel,
    parseRecovering_resumes ⟨[callRule]⟩ callBroken hn herror⟩

end CommandScript
