import CommandScript.Run

/-!
# Strict and recovering parses agree

The strict run and the recovering run are two loops. A strict run takes matches up to the end of
input or a last step with an error (`exists_front_strictRun`). A recovering run from the same cursor
takes the same steps first (`exists_steps_run`), and it takes no others if it may not record a
second error, or if the strict run has no error or a fatal one (`steps_run_eq`). In any case the two
have the same first error (`head?_errors_run`). `parse_agrees` says what this means for parses.
-/

namespace CommandScript

/-! ## A strict run stops at its first error -/

theorem Step.action?_of_error? {s : Step} {e : ParseError} (h : s.error? = some e) :
    s.action? = none := by
  cases s with
  | matched ms a => cases h
  | unmatched ms e' => rfl
  | malformed ms e' => rfl

/-- The steps of a strict run are matches, but for the last one if the run fails. -/
theorem exists_front_strictRun (g : Grammar) (c : Cursor) :
    ∃ (front : List Step) (last : Option Step),
      (strictRun g c).steps = front ++ last.toList ∧ (∀ s ∈ front, s.error? = none) ∧
        ∀ s ∈ last, s.error? ≠ none := by
  have single (s : Step) (hs : s.error? ≠ none) : ∃ (front : List Step) (last : Option Step),
      [s] = front ++ last.toList ∧ (∀ s ∈ front, s.error? = none) ∧
        ∀ s ∈ last, s.error? ≠ none :=
    ⟨[], some s, rfl, by simp, by simpa using hs⟩
  induction c using strictRun.induct (g := g) with
  | case1 c hc =>
    rw [strictRun_of_atEnd hc]
    exact ⟨[], none, rfl, by simp, by simp⟩
  | case2 c hc tried action c' ho ih =>
    obtain ⟨front, last, hsteps, hfront, hlast⟩ := ih
    rw [strictRun_of_not_atEnd (Bool.eq_false_iff.mpr hc), ho]
    refine ⟨.matched tried.misses action :: front, last, ?_, ?_, hlast⟩
    · exact congrArg (Step.matched tried.misses action :: ·) hsteps
    · exact List.forall_mem_cons.mpr ⟨rfl, hfront⟩
  | case3 c hc tried c' ho =>
    rw [strictRun_of_not_atEnd (Bool.eq_false_iff.mpr hc), ho]
    exact single _ (Option.some_ne_none _)
  | case4 c hc tried ho =>
    rw [strictRun_of_not_atEnd (Bool.eq_false_iff.mpr hc), ho]
    exact single _ (Option.some_ne_none _)

/-- A strict run that fails with an error records no other, and all steps before are matches. -/
theorem exists_front_of_head?_errors {g : Grammar} {c : Cursor} {e : ParseError}
    (h : (strictRun g c).errors.head? = some e) :
    (strictRun g c).errors = [e] ∧ ∃ front last, (strictRun g c).steps = front ++ [last] ∧
      last.error? = some e ∧ ∀ s ∈ front, s.error? = none := by
  obtain ⟨front, last, hsteps, hfront, hlast⟩ := exists_front_strictRun g c
  have herrors : (strictRun g c).errors = last.toList.filterMap Step.error? := by
    rw [Run.errors, hsteps, List.filterMap_append, List.filterMap_eq_nil_iff.mpr hfront,
      List.nil_append]
  cases last with
  | none =>
    rw [herrors] at h
    cases h
  | some s =>
    obtain ⟨e', he'⟩ := Option.ne_none_iff_exists'.mp (hlast s rfl)
    have hsingle : (strictRun g c).errors = [e'] := by
      rw [herrors, Option.toList_some, List.filterMap_cons, he', List.filterMap_nil]
    rw [hsingle] at h ⊢
    cases h
    exact ⟨rfl, front, s, hsteps, he', hfront⟩

/-! ## The two loops take the same steps -/

/-- A recovering run takes the steps of a strict one. It goes on after them only if it may record
a second error and the first one is not fatal. -/
theorem exists_steps_run (g : Grammar) (n : Nat) (c : Cursor) :
    ∃ more, (run g n c).steps = (strictRun g c).steps ++ more ∧
      (more = [] ∨ ¬n ≤ 1 ∧ ∃ e, (strictRun g c).errors = [e] ∧ e.isFatal = false) := by
  induction c using strictRun.induct (g := g) with
  | case1 c hc =>
    rw [strictRun_of_atEnd hc, run_of_atEnd hc]
    exact ⟨[], rfl, Or.inl rfl⟩
  | case2 c hc tried action c' ho ih =>
    have hc := Bool.eq_false_iff.mpr hc
    obtain ⟨more, hsteps, hmore⟩ := ih
    rw [strictRun_of_not_atEnd hc, run_of_matched hc ho, ho]
    exact ⟨more, congrArg (_ :: ·) hsteps, hmore⟩
  | case3 c hc tried c' ho =>
    have hc := Bool.eq_false_iff.mpr hc
    rw [strictRun_of_not_atEnd hc, run_of_malformed hc ho, ho]
    exact ⟨[], rfl, Or.inl rfl⟩
  | case4 c hc tried ho =>
    have hc := Bool.eq_false_iff.mpr hc
    rw [strictRun_of_not_atEnd hc, ho]
    by_cases hn : n ≤ 1
    · rw [run_of_unmatched_of_le hc ho hn]
      exact ⟨[], rfl, Or.inl rfl⟩
    · rw [run_of_unmatched hc ho hn]
      exact ⟨_, rfl, Or.inr ⟨hn, _, rfl, rfl⟩⟩

/-- A strict run is a recovering one that may record one error. -/
theorem strictRun_eq_run_one (g : Grammar) (c : Cursor) : strictRun g c = run g 1 c := by
  induction c using strictRun.induct (g := g) with
  | case1 c hc => rw [strictRun_of_atEnd hc, run_of_atEnd hc]
  | case2 c hc tried action c' ho ih =>
    have hc := Bool.eq_false_iff.mpr hc
    rw [strictRun_of_not_atEnd hc, run_of_matched hc ho, ho]
    exact congrArg (Run.cons _) ih
  | case3 c hc tried c' ho =>
    have hc := Bool.eq_false_iff.mpr hc
    rw [strictRun_of_not_atEnd hc, run_of_malformed hc ho, ho]
  | case4 c hc tried ho =>
    have hc := Bool.eq_false_iff.mpr hc
    rw [strictRun_of_not_atEnd hc, run_of_unmatched_of_le hc ho (Nat.le_refl 1), ho]

/-! ## What the two parses give -/

theorem Run.errors_of_steps_eq {r r' : Run} {more : List Step}
    (h : r.steps = r'.steps ++ more) : r.errors = r'.errors ++ more.filterMap Step.error? := by
  rw [errors, h, List.filterMap_append, errors]

theorem Run.block_of_steps_eq {r r' : Run} (h : r.steps = r'.steps) : r.block = r'.block := by
  rw [block, h, block]

/-- A recovering run ends where a strict one does if it may not record a second error, and if the
strict one has no error or a fatal one. -/
theorem steps_run_eq {g : Grammar} {n : Nat} {c : Cursor}
    (h : n ≤ 1 ∨ ∀ e ∈ (strictRun g c).errors, e.isFatal = true) :
    (run g n c).steps = (strictRun g c).steps := by
  obtain ⟨more, hsteps, hmore⟩ := exists_steps_run g n c
  have hnil : more = [] := by
    rcases hmore with hmore | ⟨hn, e, he, hfatal⟩
    · exact hmore
    rcases h with h | h
    · exact absurd h hn
    · rw [h e (by simp [he])] at hfatal
      cases hfatal
  rw [hsteps, hnil, List.append_nil]

/-- The first error of a recovering run is the error of a strict one. -/
theorem head?_errors_run (g : Grammar) (n : Nat) (c : Cursor) :
    (run g n c).errors.head? = (strictRun g c).errors.head? := by
  cases hs : (strictRun g c).errors with
  | nil =>
    have hsteps : (run g n c).steps = (strictRun g c).steps := steps_run_eq (Or.inr (by simp [hs]))
    rw [Run.errors, hsteps, ← Run.errors, hs]
  | cons e es =>
    obtain ⟨more, hsteps, -⟩ := exists_steps_run g n c
    rw [Run.errors_of_steps_eq hsteps, hs, List.cons_append, List.head?_cons, List.head?_cons]

/-- A strict parse gives a block exactly if a recovering parse gives it without an error, and it
fails with an error exactly if that is the first one of a recovering parse. If a recovering parse
may record one error only, or a malformed number is the first, it records no other, and its block
holds the actions that the strict run matched before. -/
theorem parse_agrees (g : Grammar) (n : Nat) (ts : List Placed) :
    (∀ b, parse g ts = .ok b ↔ parseRecovering g n ts = (b, [])) ∧
      (∀ e, parse g ts = .error e ↔ (parseRecovering g n ts).2.head? = some e) ∧
      ∀ e, parse g ts = .error e →
        (n ≤ 1 ∨ ∃ text position line, e = .invalidNumber text position line) →
        (parseRecovering g n ts).2 = [e] ∧
          ∃ front last, (strictRun g ⟨0, ts⟩).steps = front ++ [last] ∧ last.error? = some e ∧
            (∀ s ∈ front, s.error? = none) ∧
            (parseRecovering g n ts).1.actions = front.filterMap Step.action? := by
  have hhead := head?_errors_run g n ⟨0, ts⟩
  refine ⟨fun b => ?_, fun e => ?_, fun e he hone => ?_⟩
  · have hclean : (strictRun g ⟨0, ts⟩).errors = [] ↔ (run g n ⟨0, ts⟩).errors = [] := by
      rw [← List.head?_eq_none_iff, ← hhead, List.head?_eq_none_iff]
    have hblock (h : (strictRun g ⟨0, ts⟩).errors = []) :
        (run g n ⟨0, ts⟩).block = (strictRun g ⟨0, ts⟩).block :=
      Run.block_of_steps_eq (steps_run_eq (Or.inr (by simp [h])))
    rw [parse, Run.result_eq_ok_iff, parseRecovering, Prod.mk.injEq, ← hclean]
    constructor
    · rintro ⟨hnil, rfl⟩
      exact ⟨hblock hnil, hnil⟩
    · rintro ⟨rfl, hnil⟩
      exact ⟨hnil, (hblock hnil).symm⟩
  · rw [parse, Run.result_eq_error_iff, parseRecovering, hhead]
  · rw [parse, Run.result_eq_error_iff] at he
    obtain ⟨hsingle, front, last, hfront, hlast, hmatches⟩ := exists_front_of_head?_errors he
    have hsteps : (run g n ⟨0, ts⟩).steps = (strictRun g ⟨0, ts⟩).steps := by
      refine steps_run_eq (hone.imp_right ?_)
      rintro ⟨text, position, line, rfl⟩ e' he'
      rw [hsingle, List.mem_singleton] at he'
      rw [he']
      rfl
    refine ⟨?_, front, last, hfront, hlast, hmatches, ?_⟩
    · rw [parseRecovering, Run.errors, hsteps, ← Run.errors, hsingle]
    · rw [parseRecovering, Run.block, hsteps, hfront, List.filterMap_append,
        List.filterMap_cons, Step.action?_of_error? hlast, List.filterMap_nil, List.append_nil]

end CommandScript
