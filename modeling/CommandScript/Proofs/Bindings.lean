import Mathlib.Data.List.Induction
import CommandScript.Action

/-!
# Names and their last values

Binding a name gives it its value and leaves every other name as it was (`Arguments.get?_insert`),
and the names keep the order in which they were first bound (`Arguments.names_insert`). So
entries that are bound one after the other leave each of their names once, with the value of its
last entry (`Binds`): `Binds.insert` says so of one more entry, and `Arguments.binds_ofList` of a
whole row.
-/

namespace CommandScript

/-- The value of the last entry of a name. -/
def lastValue? (entries : List (String × Value)) (name : String) : Option Value :=
  (entries.reverse.find? fun e => e.1 == name).map Prod.snd

/-- Arguments that have the names of entries, in the order in which these first come, each with
the value of its last entry. -/
structure Binds (a : Arguments) (entries : List (String × Value)) : Prop where
  names : a.names = (entries.map Prod.fst).eraseDups
  get? : ∀ name, a.get? name = lastValue? entries name

namespace Arguments

/-! ## Binding one name -/

section

variable (name : String) (value : Value)

theorem map_fst_bindEntry (entries : List (String × Value)) :
    (bindEntry name value entries).2.map Prod.fst =
      if name ∈ entries.map Prod.fst then entries.map Prod.fst
      else entries.map Prod.fst ++ [name] := by
  induction entries with
  | nil => rfl
  | cons e es ih =>
    obtain ⟨n, v⟩ := e
    rw [bindEntry]
    by_cases h : n = name
    · simp [h]
    · rw [if_neg h, List.map_cons, ih]
      simp only [List.map_cons, List.mem_cons, Ne.symm h, false_or]
      split <;> rfl

theorem find?_bindEntry (entries : List (String × Value)) (m : String) :
    ((bindEntry name value entries).2.find? fun e => e.1 == m).map Prod.snd =
      if name = m then some value else (entries.find? fun e => e.1 == m).map Prod.snd := by
  induction entries with
  | nil => by_cases h : name = m <;> simp [bindEntry, h]
  | cons e es ih =>
    obtain ⟨n, v⟩ := e
    rw [bindEntry]
    by_cases h : n = name
    · subst h
      by_cases hm : n = m <;> simp [hm]
    · rw [if_neg h]
      by_cases hm : n = m
      · have hname : name ≠ m := fun hn => h (hm.trans hn.symm)
        simp [hm, hname]
      · simp only [List.find?_cons, beq_false_of_ne hm, ih]

/-- A name that is bound again keeps its place. -/
theorem names_insert (a : Arguments) :
    (a.insert name value).names = if name ∈ a.names then a.names else a.names ++ [name] :=
  map_fst_bindEntry name value a.entries

/-- Binding a name leaves the other names as they were. -/
theorem get?_insert (a : Arguments) (m : String) :
    (a.insert name value).get? m = if name = m then some value else a.get? m :=
  find?_bindEntry name value a.entries m

end

/-! ## Binding names one after the other -/

theorem ofList_concat (entries : List (String × Value)) (e : String × Value) :
    ofList (entries ++ [e]) = (ofList entries).insert e.1 e.2 := by
  rw [ofList, List.foldl_append]
  rfl

/-- No name is bound twice. -/
theorem nodup_names_insert {a : Arguments} (h : a.names.Nodup) (name : String) (value : Value) :
    (a.insert name value).names.Nodup := by
  rw [names_insert]
  split
  · exact h
  · next hname =>
    refine List.nodup_append.mpr ⟨h, by simp, fun m hm m' hm' heq => hname ?_⟩
    rwa [← List.mem_singleton.mp hm', ← heq]

theorem nodup_names_ofList (entries : List (String × Value)) : (ofList entries).names.Nodup := by
  induction entries using List.reverseRecOn with
  | nil => exact List.nodup_nil
  | append_singleton es e ih =>
    rw [ofList_concat]
    exact nodup_names_insert ih e.1 e.2

end Arguments

/-! ## What is left of entries -/

section

variable {entries : List (String × Value)} {name : String}

theorem lastValue?_eq_none_iff :
    lastValue? entries name = none ↔ name ∉ entries.map Prod.fst := by
  simp only [lastValue?, Option.map_eq_none_iff, List.find?_eq_none, List.mem_reverse,
    beq_iff_eq, List.mem_map, not_exists, not_and]

/-- The last entry of a name is the one that no entry of this name follows. -/
theorem lastValue?_eq_some_iff {value : Value} :
    lastValue? entries name = some value ↔
      ∃ before after, entries = before ++ (name, value) :: after ∧
        name ∉ after.map Prod.fst := by
  constructor
  · intro h
    obtain ⟨e, he, rfl⟩ := Option.map_eq_some_iff.mp h
    obtain ⟨hname, after, before, hentries, hafter⟩ := List.find?_eq_some_iff_append.mp he
    obtain rfl : e.1 = name := beq_iff_eq.mp hname
    refine ⟨before.reverse, after.reverse, ?_, fun hmem => ?_⟩
    · rw [List.reverse_eq_iff.mp hentries]
      simp
    · obtain ⟨e', he', heq⟩ := List.mem_map.mp hmem
      simpa [heq] using hafter e' (List.mem_reverse.mp he')
  · rintro ⟨before, after, rfl, hafter⟩
    have hnone := lastValue?_eq_none_iff.mpr hafter
    rw [lastValue?, Option.map_eq_none_iff] at hnone
    simp [lastValue?, List.find?_append, hnone]

end

theorem lastValue?_concat (entries : List (String × Value)) (e : String × Value)
    (name : String) : lastValue? (entries ++ [e]) name =
      if e.1 = name then some e.2 else lastValue? entries name := by
  by_cases h : e.1 = name <;> simp [lastValue?, h]

/-- A text that is there already is left out at the end. -/
theorem eraseDups_concat (xs : List String) (x : String) :
    (xs ++ [x]).eraseDups = if x ∈ xs then xs.eraseDups else xs.eraseDups ++ [x] := by
  rw [List.eraseDups_append]
  by_cases h : x ∈ xs
  · simp [List.removeAll, h]
  · simp [List.removeAll, List.eraseDups_cons, h]

/-- One more entry is bound by binding its name. -/
theorem Binds.insert {a : Arguments} {entries : List (String × Value)} (h : Binds a entries)
    (e : String × Value) : Binds (a.insert e.1 e.2) (entries ++ [e]) where
  names := by
    rw [Arguments.names_insert, h.names, List.map_append, List.map_singleton, eraseDups_concat]
    simp only [List.mem_eraseDups]
  get? name := by
    rw [Arguments.get?_insert, lastValue?_concat, h.get?]

/-- Entries that are bound one after the other leave each name with the value of its last entry. -/
theorem Arguments.binds_ofList (entries : List (String × Value)) :
    Binds (ofList entries) entries := by
  induction entries using List.reverseRecOn with
  | nil => exact ⟨rfl, fun _ => rfl⟩
  | append_singleton es e ih =>
    rw [ofList_concat]
    exact ih.insert e

end CommandScript
