import CommandScript.Proofs.FirstError
import CommandScript.Proofs.Recovery

/-!
# The error limit

A recovering run with a lower limit takes the first steps of the one with a higher limit. It records
no more errors than its limit, and it leaves steps out only if it has recorded as many
(`exists_more_run`). Its last step is then the error that was one too many
(`IsTiling.exists_last`).

What it gives of the actions is told by the stretches of the longer run. The token that was skipped
last lies between the stretches before it and those after it, so the stretches that end at or before
its position are those before it (`Tiles.filter_stop_le`). A fatal error points behind all stretches.
Both come together in `parseRecovering_of_le`.

The limit is looked at only where an error has been recorded. So a limit of zero acts as a limit of
one, and it is the only limit that is ever exceeded (`length_errors_parseRecovering`).
-/

namespace CommandScript

variable {g : Grammar} {n m : Nat} {c : Cursor}

/-! ## The steps of runs with different limits -/

/-- A run that may record an error records no more of them than its limit. -/
theorem length_errors_run_le (g : Grammar) (n : Nat) (c : Cursor) (hn : 1 ≤ n) :
    (run g n c).errors.length ≤ n := by
  induction n, c using run_induction (g := g) with
  | atEnd n c hc =>
    rw [run_of_atEnd hc]
    exact Nat.zero_le n
  | matched n c a d hc ho ih =>
    rw [run_of_matched hc ho]
    exact ih hn
  | malformed n c d hc ho =>
    rw [run_of_malformed hc ho]
    exact hn
  | stopped n c hc ho hlimit =>
    rw [run_of_unmatched_of_le hc ho hlimit]
    exact hn
  | skipped n c hc ho hlimit ih =>
    have hle := ih (by omega)
    rw [run_of_unmatched hc ho hlimit, Run.errors_cons, Step.error?, Option.toList_some,
      List.length_append, List.length_singleton]
    omega

/-- A run with a lower limit takes the first steps of a run with a higher one. It leaves steps out
only if it has recorded as many errors as it may. -/
theorem exists_more_run (g : Grammar) (n : Nat) (c : Cursor) (hn : 1 ≤ n) :
    ∀ m, n ≤ m → ∃ more, (run g m c).steps = (run g n c).steps ++ more ∧
      (more = [] ∨ (run g n c).errors.length = n) := by
  induction n, c using run_induction (g := g) with
  | atEnd n c hc =>
    intro m hm
    rw [run_of_atEnd hc, run_of_atEnd hc]
    exact ⟨[], rfl, Or.inl rfl⟩
  | matched n c a d hc ho ih =>
    intro m hm
    obtain ⟨more, hsteps, hmore⟩ := ih hn m hm
    rw [run_of_matched hc ho, run_of_matched hc ho]
    exact ⟨more, congrArg (_ :: ·) hsteps, hmore⟩
  | malformed n c d hc ho =>
    intro m hm
    rw [run_of_malformed hc ho, run_of_malformed hc ho]
    exact ⟨[], rfl, Or.inl rfl⟩
  | stopped n c hc ho hlimit =>
    intro m hm
    have hone : n = 1 := Nat.le_antisymm hlimit hn
    rw [run_of_unmatched_of_le hc ho hlimit]
    by_cases hm : m ≤ 1
    · rw [run_of_unmatched_of_le hc ho hm]
      exact ⟨[], rfl, Or.inl rfl⟩
    · rw [run_of_unmatched hc ho hm]
      exact ⟨_, rfl, Or.inr hone.symm⟩
  | skipped n c hc ho hlimit ih =>
    intro m hm
    obtain ⟨more, hsteps, hmore⟩ := ih (by omega) (m - 1) (by omega)
    rw [run_of_unmatched hc ho hlimit, run_of_unmatched hc ho (by omega : ¬m ≤ 1)]
    refine ⟨more, congrArg (_ :: ·) hsteps, hmore.imp_right fun hlength => ?_⟩
    rw [Run.errors_cons, Step.error?, Option.toList_some, List.length_append,
      List.length_singleton, hlength]
    omega

/-! ## The stretches of the shorter run -/

/-- The position after the last token of a stretch. -/
def Stretch.stop (ts : List Placed) (s : Stretch) : Nat :=
  s.start + s.length ts

variable {ts : List Placed} {p q : Nat} {ss : List Stretch}

namespace Tiles

theorem le_start (h : Tiles ts p ss q) : ∀ s ∈ ss, p ≤ s.start := by
  induction ss generalizing p with
  | nil => exact fun s hs => absurd hs List.not_mem_nil
  | cons s ss ih =>
    obtain ⟨rfl, -, hss⟩ := h
    refine List.forall_mem_cons.mpr ⟨Nat.le_refl _, fun s' hs' => ?_⟩
    exact Nat.le_of_add_right_le (ih hss s' hs')

theorem stop_le (h : Tiles ts p ss q) : ∀ s ∈ ss, s.stop ts ≤ q := by
  induction ss generalizing p with
  | nil => exact fun s hs => absurd hs List.not_mem_nil
  | cons s ss ih =>
    obtain ⟨rfl, -, hss⟩ := h
    exact List.forall_mem_cons.mpr ⟨hss.le, ih hss⟩

/-- Stretches in a row are two rows, the second one from where the first one ends. -/
theorem append_iff {more : List Stretch} :
    Tiles ts p (ss ++ more) q ↔ ∃ r, Tiles ts p ss r ∧ Tiles ts r more q := by
  induction ss generalizing p with
  | nil => simp [Tiles]
  | cons s ss ih => simp [Tiles, ih, and_assoc]

/-- The stretches that end at or before the position of a token that was skipped are those before
it. -/
theorem filter_stop_le {front more : List Stretch} {closest : Option String} {k : Nat}
    (h : Tiles ts p (front ++ .skipped k closest :: more) q) :
    (front ++ .skipped k closest :: more).filter (fun s => s.stop ts ≤ k) = front := by
  obtain ⟨r, hfront, rfl, -, hmore⟩ := append_iff.mp h
  have hbefore : ∀ s ∈ front, decide (s.stop ts ≤ k) = true :=
    fun s hs => decide_eq_true (hfront.stop_le s hs)
  have hafter : ∀ s ∈ Stretch.skipped k closest :: more, ¬decide (s.stop ts ≤ k) = true := by
    intro s hs
    rw [decide_eq_true_eq, Nat.not_le]
    rcases List.mem_cons.mp hs with rfl | hs
    · exact Nat.lt_succ_self k
    · exact Nat.le_trans (hmore.le_start s hs) (Nat.le_add_right _ _)
  rw [List.filter_append, List.filter_eq_self.mpr hbefore, List.filter_eq_nil_iff.mpr hafter,
    List.append_nil]

end Tiles

namespace IsTiling

variable {limit : Nat} {r : Run} {fatal : Option ParseError} {e : ParseError}
  {front more : List (Action ⊕ ParseError)}

/-- A run that has recorded as many errors as it may ends with an error. -/
theorem exists_last (h : IsTiling g ts limit p r ss q fatal) (hlimit : LimitReached limit r.errors) :
    ∃ front e, r.steps.map Step.event = front ++ [.inr e] := by
  cases fatal with
  | some e => exact ⟨_, e, h.order⟩
  | none =>
    obtain ⟨front, k, closest, rfl⟩ := h.last rfl hlimit
    refine ⟨front.map (Stretch.event ts),
      .noRule (tokenAt ts k).token k (tokenAt ts k).line closest, ?_⟩
    rw [h.order, List.map_append, Option.toList_none, List.map_nil, List.append_nil]
    rfl

/-- An error that a run gives is that of a stretch, or the fatal one after all stretches. -/
theorem exists_skipped_or_fatal (h : IsTiling g ts limit p r ss q fatal)
    (hr : r.steps.map Step.event = front ++ .inr e :: more) :
    (∃ before k closest after, ss = before ++ .skipped k closest :: after ∧ k = e.position ∧
        before.map (Stretch.event ts) = front) ∨
      ss.map (Stretch.event ts) = front ∧ fatal = some e := by
  have hfatal {before : List (Action ⊕ ParseError)}
      (hlast : fatal.toList.map Sum.inr = before ++ .inr e :: more) :
      before = [] ∧ fatal = some e := by
    cases fatal <;> cases before <;> simp_all
  rcases List.append_eq_append_iff.mp (h.order.symm.trans hr) with
    ⟨before, hfront, hlast⟩ | ⟨after, hmap, hrest⟩
  · obtain ⟨rfl, hsome⟩ := hfatal hlast
    exact Or.inr ⟨by rw [hfront, List.append_nil], hsome⟩
  · cases after with
    | nil =>
      have hlast : fatal.toList.map Sum.inr = [] ++ .inr e :: more := hrest.symm
      exact Or.inr ⟨by rw [hmap, List.append_nil], (hfatal hlast).2⟩
    | cons x after =>
      obtain ⟨rfl, -⟩ := List.cons.inj hrest
      obtain ⟨before, rest, rfl, hfront, hevents⟩ := List.map_eq_append_iff.mp hmap
      obtain ⟨s, rest, rfl, hs, -⟩ := List.map_eq_cons_iff.mp hevents
      cases s with
      | taken k rule => cases hs
      | skipped k closest =>
        cases hs
        exact Or.inl ⟨before, k, closest, rest, rfl, rfl, hfront⟩

/-- What a run gives before one of its errors it gives for the stretches that end at or before the
position of the error. -/
theorem map_event_filter (h : IsTiling g ts limit p r ss q fatal)
    (hr : r.steps.map Step.event = front ++ .inr e :: more) :
    (ss.filter fun s => s.stop ts ≤ e.position).map (Stretch.event ts) = front := by
  rcases h.exists_skipped_or_fatal hr with ⟨before, k, closest, after, rfl, rfl, hfront⟩ |
    ⟨hfront, rfl⟩
  · rw [h.tiles.filter_stop_le, hfront]
  · obtain ⟨k, hk, -, -, rfl⟩ := h.fatal_at e rfl
    have hall : ∀ s ∈ ss, decide (s.stop ts ≤ k) = true :=
      fun s hs => decide_eq_true (Nat.le_trans (h.tiles.stop_le s hs) hk)
    rw [ParseError.position, List.filter_eq_self.mpr hall, hfront]

end IsTiling

/-! ## Parses with different limits -/

/-- The last error of a run that may record no more is where the shorter run stops: what it gives
before are the actions of the stretches that end at or before the position of the error. -/
theorem actions_run_of_getElem? {stop : Nat} {fatal : Option ParseError} {e : ParseError}
    (hn : 1 ≤ n) (hnm : n ≤ m)
    (h : IsTiling g ts m 0 (run g m ⟨0, ts⟩) ss stop fatal)
    (he : (run g m ⟨0, ts⟩).errors[n - 1]? = some e) :
    (run g n ⟨0, ts⟩).block.actions =
      Stretch.actions ts (ss.filter fun s => s.stop ts ≤ e.position) := by
  obtain ⟨more, hsteps, hmore⟩ := exists_more_run g n ⟨0, ts⟩ hn m hnm
  have herrors := Run.errors_of_steps_eq hsteps
  have hle := length_errors_run_le g n ⟨0, ts⟩ hn
  -- the longer run has an `n`-th error, so the shorter one has recorded it too
  have hlength : (run g n ⟨0, ts⟩).errors.length = n := by
    rcases hmore with rfl | hlength
    · obtain ⟨hlt, -⟩ := List.getElem?_eq_some_iff.mp he
      simp only [herrors, List.filterMap_nil, List.append_nil] at hlt
      omega
    · exact hlength
  obtain ⟨ss', stop', fatal', h'⟩ := exists_isTiling_run g ts n
  obtain ⟨front, e', hevents⟩ := h'.exists_last
    ⟨List.ne_nil_of_length_pos (by omega), Nat.le_of_eq hlength.symm⟩
  have hlast : e' = e := by
    have hget : (run g n ⟨0, ts⟩).errors.getLast? = some e' := by
      rw [Run.errors_eq_events, hevents]
      simp
    rw [herrors, List.getElem?_append_left (by omega)] at he
    rw [List.getLast?_eq_getElem?, hlength, he] at hget
    exact (Option.some.inj hget).symm
  subst hlast
  -- the longer run gives the same before this error, and its stretches tell what that is
  have hlong : (run g m ⟨0, ts⟩).steps.map Step.event =
      front ++ .inr e' :: more.map Step.event := by
    rw [hsteps, List.map_append, hevents, List.append_assoc]
    rfl
  rw [Run.actions_eq_events, hevents, ← h.map_event_filter hlong, Stretch.actions]
  simp

/-- A lower limit only cuts a recovering parse off. Its errors are the first ones of the parse with
the higher limit, and its actions are first ones too: those of the stretches that end at or before
the position of the last error. If the parse with the higher limit has fewer errors than the lower
limit, the two give the same. -/
theorem parseRecovering_of_le (g : Grammar) (ts : List Placed) (hn : 1 ≤ n) (hnm : n ≤ m) :
    (parseRecovering g n ts).2 = (parseRecovering g m ts).2.take n ∧
      (parseRecovering g n ts).1.actions <+: (parseRecovering g m ts).1.actions ∧
      ((parseRecovering g m ts).2.length < n →
        parseRecovering g n ts = parseRecovering g m ts) ∧
      ∃ ss stop fatal, IsTiling g ts m 0 (run g m ⟨0, ts⟩) ss stop fatal ∧
        (parseRecovering g m ts).1.actions = Stretch.actions ts ss ∧
        ∀ e, (parseRecovering g m ts).2[n - 1]? = some e →
          (parseRecovering g n ts).1.actions =
            Stretch.actions ts (ss.filter fun s => s.stop ts ≤ e.position) := by
  obtain ⟨more, hsteps, hmore⟩ := exists_more_run g n ⟨0, ts⟩ hn m hnm
  have herrors := Run.errors_of_steps_eq hsteps
  have hle := length_errors_run_le g n ⟨0, ts⟩ hn
  simp only [parseRecovering]
  refine ⟨?_, ?_, fun hlt => ?_, ?_⟩
  · rcases hmore with rfl | hlength
    · rw [herrors, List.filterMap_nil, List.append_nil, List.take_of_length_le hle]
    · rw [herrors, List.take_left' hlength]
  · rw [Run.block, Run.block, hsteps, List.filterMap_append]
    exact List.prefix_append _ _
  · have hnil : more = [] := by
      refine hmore.resolve_right fun hlength => ?_
      rw [herrors, List.length_append, hlength] at hlt
      omega
    rw [hnil, List.append_nil] at hsteps
    rw [Run.block_of_steps_eq hsteps, Run.errors, Run.errors, hsteps]
  · obtain ⟨ss, stop, fatal, h⟩ := exists_isTiling_run g ts m
    exact ⟨ss, stop, fatal, h, h.actions_eq, fun e he => actions_run_of_getElem? hn hnm h he⟩

/-- A rule of one keyword. -/
def restRule : Rule :=
  ⟨"rest", [.keyword "rest"]⟩

/-- Matches of `restRule` with words between them that no rule takes. -/
def restBetween : List Placed :=
  [⟨⟨.word, "rest"⟩, 1⟩, ⟨⟨.word, "so"⟩, 1⟩, ⟨⟨.word, "rest"⟩, 2⟩, ⟨⟨.word, "on"⟩, 2⟩,
    ⟨⟨.word, "rest"⟩, 3⟩]

theorem parseRecovering_of_le_restBetween :
    let short := parseRecovering ⟨[restRule]⟩ 1 restBetween
    let long := parseRecovering ⟨[restRule]⟩ 3 restBetween
    1 ≤ 1 ∧ 1 ≤ 3 ∧ long.2.length = 2 ∧ short.2 = long.2.take 1 ∧
      short.1.actions <+: long.1.actions ∧
      ∃ ss stop fatal,
        IsTiling ⟨[restRule]⟩ restBetween 3 0 (run ⟨[restRule]⟩ 3 ⟨0, restBetween⟩) ss stop fatal ∧
        long.1.actions = Stretch.actions restBetween ss ∧
        ∀ e, long.2[0]? = some e → short.1.actions =
          Stretch.actions restBetween (ss.filter fun s => s.stop restBetween ≤ e.position) := by
  have hlength : (parseRecovering ⟨[restRule]⟩ 3 restBetween).2.length = 2 := by decide +kernel
  obtain ⟨herrors, hactions, -, htiling⟩ :=
    parseRecovering_of_le ⟨[restRule]⟩ restBetween (Nat.le_refl 1) (by decide : 1 ≤ 3)
  exact ⟨Nat.le_refl 1, by decide, hlength, herrors, hactions, htiling⟩

/-! ## A limit of zero -/

/-- A run looks at the limit only after it has recorded an error, so a limit of zero acts as a limit
of one. -/
theorem run_of_le_one (g : Grammar) (n : Nat) (c : Cursor) : n ≤ 1 → run g n c = run g 1 c := by
  induction n, c using run_induction (g := g) with
  | atEnd n c hc =>
    intro _
    rw [run_of_atEnd hc, run_of_atEnd hc]
  | matched n c a d hc ho ih =>
    intro hn
    rw [run_of_matched hc ho, run_of_matched hc ho, ih hn]
  | malformed n c d hc ho =>
    intro _
    rw [run_of_malformed hc ho, run_of_malformed hc ho]
  | stopped n c hc ho hlimit =>
    intro _
    rw [run_of_unmatched_of_le hc ho hlimit, run_of_unmatched_of_le hc ho (Nat.le_refl 1)]
  | skipped n c hc ho hlimit ih => exact fun hn => absurd hn hlimit

theorem length_errors_run_le_max (g : Grammar) (n : Nat) (c : Cursor) :
    (run g n c).errors.length ≤ max n 1 := by
  rcases Nat.eq_zero_or_pos n with rfl | hn
  · rw [run_of_le_one g 0 c (Nat.zero_le 1)]
    exact length_errors_run_le g 1 c (Nat.le_refl 1)
  · exact Nat.le_trans (length_errors_run_le g n c hn) (Nat.le_max_left n 1)

/-- With a limit of zero a recovering parse gives the error of a strict parse, if there is one, and
no other. -/
theorem errors_parseRecovering_zero (g : Grammar) (ts : List Placed) (e : ParseError) :
    (parseRecovering g 0 ts).2 = [e] ↔ parse g ts = .error e := by
  have hlength := length_errors_run_le_max g 0 ⟨0, ts⟩
  rw [parse, Run.result_eq_error_iff, ← head?_errors_run g 0, parseRecovering]
  cases herrors : (run g 0 ⟨0, ts⟩).errors with
  | nil => simp
  | cons e' es =>
    rw [herrors, List.length_cons] at hlength
    have hes : es = [] := List.length_eq_zero_iff.mp (by omega)
    simp [hes]

/-- A recovering parse gives at most `n` errors, with one exception: if `n` is zero and a strict
parse fails, it gives the error of the strict parse. -/
theorem length_errors_parseRecovering (g : Grammar) (ts : List Placed) (n : Nat) :
    (parseRecovering g n ts).2.length ≤ max n 1 ∧
      (n < (parseRecovering g n ts).2.length ↔ n = 0 ∧ ∃ e, parse g ts = .error e) ∧
      ∀ e, (parseRecovering g 0 ts).2 = [e] ↔ parse g ts = .error e := by
  have hmax : (parseRecovering g n ts).2.length ≤ max n 1 := length_errors_run_le_max g n ⟨0, ts⟩
  refine ⟨hmax, ⟨fun hlt => ?_, ?_⟩, errors_parseRecovering_zero g ts⟩
  · obtain rfl : n = 0 := by omega
    have hone : (parseRecovering g 0 ts).2.length = 1 := by omega
    obtain ⟨e, he⟩ := List.length_eq_one_iff.mp hone
    exact ⟨rfl, e, (errors_parseRecovering_zero g ts e).mp he⟩
  · rintro ⟨rfl, e, he⟩
    rw [(errors_parseRecovering_zero g ts e).mpr he]
    exact Nat.zero_lt_one

/-- The number of errors is not always within the limit. -/
theorem not_forall_length_errors_le : ¬∀ (g : Grammar) (ts : List Placed) (n : Nat),
    (parseRecovering g n ts).2.length ≤ n := by
  intro h
  exact absurd (h ⟨[]⟩ [⟨⟨.word, "go"⟩, 1⟩] 0) (by decide +kernel)

end CommandScript
