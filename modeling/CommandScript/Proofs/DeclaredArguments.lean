import CommandScript.Proofs.Bindings
import CommandScript.Proofs.Consumption

/-!
# The arguments of a match

An action binds the names that its rule declares. A rule may declare a name more than once: then
the name has the place of its first declaration and the value of its last one (`LastDeclaredAt`). A
match reads one token for each element, so this value comes from the token that is as many places
behind the first one as the last declaration is behind the first element
(`FitFrom.exists_lastDeclaredAt`).
`Parser.arguments_of_matched` says so of a parser that matches a rule wherever it stands.
-/

namespace CommandScript

/-- The last element that declares a name is the one with the index `j`. -/
def LastDeclaredAt (es : List Element) (name : String) (j : Nat) : Prop :=
  es[j]? = some (.argument name) ∧ ∀ k, j < k → es[k]? ≠ some (.argument name)

section

variable {es : List Element} {name : String} {ts : List Placed} {p : Nat}

theorem lastDeclaredAt_cons_zero (h : name ∉ es.filterMap Element.argument?) :
    LastDeclaredAt (.argument name :: es) name 0 := by
  refine ⟨rfl, fun k hk hget => h ?_⟩
  obtain ⟨k, rfl⟩ := Nat.exists_eq_add_of_lt hk
  rw [Nat.zero_add, List.getElem?_cons_succ] at hget
  exact List.mem_filterMap.mpr ⟨_, List.mem_of_getElem? hget, rfl⟩

theorem LastDeclaredAt.cons {j : Nat} (h : LastDeclaredAt es name j) (e : Element) :
    LastDeclaredAt (e :: es) name (j + 1) := by
  refine ⟨h.1, fun k hk => ?_⟩
  obtain ⟨k, rfl⟩ := Nat.exists_eq_add_of_lt hk
  rw [List.getElem?_cons_succ]
  exact h.2 _ (by omega)

/-! ## Names and values of entries -/

theorem lastValue?_cons (e : String × Value) (entries : List (String × Value)) (name : String) :
    lastValue? (e :: entries) name =
      (lastValue? entries name).or (if e.1 = name then some e.2 else none) := by
  rw [lastValue?, List.reverse_cons, List.find?_append, lastValue?]
  by_cases h : e.1 = name <;> cases entries.reverse.find? (fun e => e.1 == name) <;> simp [h]

/-- An argument that fits binds its name to the value of the token. -/
theorem bindings_cons_argument (es : List Element)
    (h : (Element.argument name).Fits (tokenAt ts p).token) :
    ∃ v, (tokenAt ts p).token.argument? = some v ∧
      bindings ts p (.argument name :: es) = (name, v) :: bindings ts (p + 1) es := by
  obtain ⟨v, -, hv⟩ := Token.reading_of_isArgument h
  exact ⟨v, hv, by rw [bindings, hv]⟩

/-- Elements that fit bind the names that they declare, in order. -/
theorem FitFrom.map_fst_bindings (h : FitFrom ts p es) :
    (bindings ts p es).map Prod.fst = es.filterMap Element.argument? := by
  induction es generalizing p with
  | nil => rfl
  | cons e es ih =>
    obtain ⟨he, hes⟩ := fitFrom_cons.mp h
    cases e with
    | keyword text => exact ih hes
    | argument name =>
      obtain ⟨v, -, hbindings⟩ := bindings_cons_argument es he
      rw [hbindings, List.map_cons, ih hes]
      rfl

/-- The last entry of a name that is declared comes from the token at its last declaration. -/
theorem FitFrom.exists_lastDeclaredAt (h : FitFrom ts p es)
    (hname : name ∈ es.filterMap Element.argument?) :
    ∃ j v, LastDeclaredAt es name j ∧ (tokenAt ts (p + j)).token.argument? = some v ∧
      lastValue? (bindings ts p es) name = some v := by
  induction es generalizing p with
  | nil => cases hname
  | cons e es ih =>
    obtain ⟨he, hes⟩ := fitFrom_cons.mp h
    -- a declaration among the later elements overrides one in the first
    by_cases hlater : name ∈ es.filterMap Element.argument?
    · obtain ⟨j, v, hj, hv, hlast⟩ := ih hes hlater
      rw [Nat.add_right_comm, Nat.add_assoc] at hv
      refine ⟨j + 1, v, hj.cons e, hv, ?_⟩
      cases e with
      | keyword text => exact hlast
      | argument other =>
        obtain ⟨w, -, hbindings⟩ := bindings_cons_argument es he
        rw [hbindings, lastValue?_cons, hlast, Option.some_or]
    · cases e with
      | keyword text => exact absurd hname hlater
      | argument other =>
        obtain rfl : name = other := by
          rcases List.mem_cons.mp hname with heq | hmem
          · exact heq
          · exact absurd hmem hlater
        obtain ⟨v, hv, hbindings⟩ := bindings_cons_argument es he
        have hnone := lastValue?_eq_none_iff.mpr (hes.map_fst_bindings ▸ hlater)
        refine ⟨0, v, lastDeclaredAt_cons_zero hlater, hv, ?_⟩
        rw [hbindings, lastValue?_cons, hnone, Option.none_or, if_pos rfl]

/-- A token that is an argument stands before the end position. -/
theorem getElem?_of_argument? {v : Value} (h : (tokenAt ts p).token.argument? = some v) :
    ts[p]? = some (tokenAt ts p) := by
  refine getElem?_eq_tokenAt (Nat.lt_of_not_le fun hle => ?_)
  have hend : (tokenAt ts p).token.kind = .eof := by
    simpa [Placed.isEnd, Token.isEnd] using (isEnd_tokenAt_iff ts p).mpr hle
  simp [Token.argument?, hend] at h

end

/-! ## The action of a match -/

namespace Parser

variable {g : Grammar} {ts : List Placed} {p : Parser} {r : Rule} {a : Action}

/-- The action of a rule that a parser matches. -/
theorem Stands.eq_actionAt_of_matched (h : Stands g ts p)
    (hr : (p.matchRule r).result = .ok (some a)) :
    r.MatchesAt ts p.position ∧ a = r.actionAt ts p.position := by
  rw [matchRule, h.cursor_eq] at hr
  cases hm : r.matchAt (cursorAt ts p.position) with
  | matched arguments c =>
    obtain ⟨hmatches, rfl, -⟩ := Rule.matchAt_eq_matched_iff.mp hm
    rw [hm] at hr
    cases hr
    exact ⟨hmatches, by rw [line_cursorAt, Rule.actionAt]⟩
  | _ =>
    rw [hm] at hr
    cases hr

/-- A match binds exactly the names that the rule declares, each of them once and in the order of
their first declarations. A name has the value of the token that stands at its last declaration. The
action has the name of the rule and the line of the token where the match started. -/
theorem arguments_of_matched (hp : IsReachable g ts p)
    (h : (p.matchRule r).result = .ok (some a)) :
    a.name = r.name ∧ a.line = (tokenAt ts p.position).line ∧
      a.arguments.names = r.arguments.eraseDups ∧ a.arguments.names.Nodup ∧
      ∀ name ∈ a.arguments.names, ∃ j t v, LastDeclaredAt r.elements name j ∧
        ts[p.position + j]? = some t ∧ t.token.argument? = some v ∧
        a.arguments.get? name = some v := by
  obtain ⟨hmatches, rfl⟩ := hp.stands.eq_actionAt_of_matched h
  have hbinds := Arguments.binds_ofList (bindings ts p.position r.elements)
  have hnames : (r.actionAt ts p.position).arguments.names = r.arguments.eraseDups :=
    hbinds.names.trans (congrArg List.eraseDups hmatches.2.map_fst_bindings)
  refine ⟨rfl, rfl, hnames, Arguments.nodup_names_ofList _, fun name hname => ?_⟩
  rw [hnames, List.mem_eraseDups] at hname
  obtain ⟨j, v, hj, hv, hlast⟩ := hmatches.2.exists_lastDeclaredAt hname
  exact ⟨j, _, v, hj, getElem?_of_argument? hv, hv, (hbinds.get? name).trans hlast⟩

/-- A rule that declares a name twice, another one in between. -/
def moveRule : Rule :=
  ⟨"move", [.keyword "move", .argument "place", .argument "item", .argument "place"]⟩

/-- A word, and behind it tokens that `moveRule` matches. -/
def thenMove : List Placed :=
  [⟨⟨.word, "then"⟩, 1⟩, ⟨⟨.word, "move"⟩, 2⟩, ⟨⟨.word, "here"⟩, 2⟩, ⟨⟨.var, "box"⟩, 3⟩,
    ⟨⟨.str, "over there"⟩, 3⟩]

theorem arguments_of_matched_thenMove :
    let p := (ofTokens ⟨[]⟩ thenMove).afterRequests [.value]
    let a : Action := ⟨"move", ⟨[("place", .str "over there"), ("item", .var "box")]⟩, 2⟩
    IsReachable ⟨[]⟩ thenMove p ∧ (p.matchRule moveRule).result = .ok (some a) ∧
      a.line = (tokenAt thenMove p.position).line ∧
      a.arguments.names = moveRule.arguments.eraseDups ∧ a.arguments.names.Nodup ∧
      "place" ∈ a.arguments.names ∧ ∃ j t v, LastDeclaredAt moveRule.elements "place" j ∧
        thenMove[p.position + j]? = some t ∧ t.token.argument? = some v ∧
        a.arguments.get? "place" = some v := by
  intro p a
  have hreachable : IsReachable ⟨[]⟩ thenMove p := ⟨_, rfl⟩
  have hmatched : (p.matchRule moveRule).result = .ok (some a) := rfl
  obtain ⟨-, hline, hnames, hnodup, hvalues⟩ := arguments_of_matched hreachable hmatched
  have hplace : "place" ∈ a.arguments.names := by decide
  exact ⟨hreachable, hmatched, hline, hnames, hnodup, hplace, hvalues _ hplace⟩

end Parser

end CommandScript
