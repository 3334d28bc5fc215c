import Mathlib.Data.Finset.Card
import Mathlib.Data.List.Forall2
import CommandScript.JsonForm
import CommandScript.Proofs.Bindings
import CommandScript.Proofs.JsonText

/-!
# Arguments as a map

Arguments are made by inserts alone, one after the other or from a list of entries, and it does not
matter which (`Arguments.afterInserts_ofList`). What they then are is said from the inserts
(`IsMapOf`): each name once, in the order of the first inserts, with the value of its last insert.
An insert answers with the value that its name had, and changes no other value and no place
(`IsInsert`).

An entry can be looked up by its name only because no name comes twice
(`Arguments.get?_of_mem_entries`). So the JSON form is an object whose keys are the names, none of
them repeated (`IsObjectOf`).
-/

namespace CommandScript

/-- The arguments after inserts, one after the other. -/
def Arguments.afterInserts (a : Arguments) (inserts : List (String × Value)) : Arguments :=
  inserts.foldl (fun a e => (a.getThenInsert? e.1 e.2).2) a

/-- Arguments that map each inserted name to the value of its last insert, with the names in the
order in which they were first inserted. -/
structure IsMapOf (a : Arguments) (inserted : List (String × Value)) : Prop where
  nodup_names : a.names.Nodup
  mem_names_iff : ∀ name, name ∈ a.names ↔ name ∈ inserted.map Prod.fst
  /-- Of two names, the one that was inserted earlier comes earlier. -/
  pairwise_names : a.names.Pairwise fun m n =>
    (inserted.map Prod.fst).idxOf m < (inserted.map Prod.fst).idxOf n
  get?_eq_some_iff : ∀ name value, a.get? name = some value ↔
    ∃ before after, inserted = before ++ (name, value) :: after ∧ name ∉ after.map Prod.fst
  get?_eq_none_iff : ∀ name, a.get? name = none ↔ name ∉ inserted.map Prod.fst
  size_eq : a.size = (inserted.map Prod.fst).toFinset.card

/-- An insert of a name: what it answers, and the arguments after it. -/
structure IsInsert (a : Arguments) (name : String) (value : Value) (answer : Option Value)
    (b : Arguments) : Prop where
  answer_eq : answer = a.get? name
  get?_eq : ∀ m, b.get? m = if name = m then some value else a.get? m
  /-- Every name that was there keeps its place. -/
  names_prefix : a.names <+: b.names

/-- An object with one member for each name, in their order. Its key is read as the name, and its
value is the form of the value of the name. No two keys are read as the same text. -/
def IsObjectOf (form : Json) (a : Arguments) : Prop :=
  ∃ members, form = .object members ∧
    List.Forall₂ (fun name m => (Json.string m.1).text? = some name ∧
      ∃ value, a.get? name = some value ∧ m.2 = value.toJson) a.names members ∧
    (members.map fun m => (Json.string m.1).text?).Nodup

/-! ## The order of the names -/

/-- Texts without their repeats stand in the order in which they first come. -/
theorem pairwise_idxOf_eraseDups (xs : List String) :
    xs.eraseDups.Pairwise fun x y => xs.idxOf x < xs.idxOf y := by
  induction xs using List.reverseRecOn with
  | nil => exact List.Pairwise.nil
  | append_singleton xs x ih =>
    have hidx {y : String} (hy : y ∈ xs.eraseDups) : (xs ++ [x]).idxOf y = xs.idxOf y :=
      List.idxOf_append_of_mem (List.mem_eraseDups.mp hy)
    have hkept : xs.eraseDups.Pairwise fun y z => (xs ++ [x]).idxOf y < (xs ++ [x]).idxOf z :=
      ih.imp_of_mem fun hy hz hlt => by rwa [hidx hy, hidx hz]
    rw [eraseDups_concat]
    split
    · exact hkept
    · next hx =>
      refine List.pairwise_append.mpr ⟨hkept, List.pairwise_singleton _ _, fun y hy z hz => ?_⟩
      obtain rfl := List.mem_singleton.mp hz
      rw [hidx hy, List.idxOf_append_of_notMem hx]
      exact Nat.lt_add_right _ (List.idxOf_lt_length_of_mem (List.mem_eraseDups.mp hy))

namespace Binds

variable {a : Arguments} {inserted : List (String × Value)}

theorem mem_names_iff (h : Binds a inserted) (name : String) :
    name ∈ a.names ↔ name ∈ inserted.map Prod.fst := by
  rw [h.names, List.mem_eraseDups]

theorem pairwise_names (h : Binds a inserted) : a.names.Pairwise fun m n =>
    (inserted.map Prod.fst).idxOf m < (inserted.map Prod.fst).idxOf n := by
  rw [h.names]
  exact pairwise_idxOf_eraseDups _

theorem nodup_names (h : Binds a inserted) : a.names.Nodup := by
  rw [h.names, ← (Arguments.binds_ofList inserted).names]
  exact Arguments.nodup_names_ofList inserted

/-- There are as many names as different ones were inserted. -/
theorem size_eq (h : Binds a inserted) :
    a.size = (inserted.map Prod.fst).toFinset.card := by
  have hnames : a.names.toFinset = (inserted.map Prod.fst).toFinset := by
    ext name
    rw [List.mem_toFinset, List.mem_toFinset, h.mem_names_iff]
  calc a.size = a.names.length := (List.length_map _).symm
    _ = a.names.toFinset.card := (List.toFinset_card_of_nodup h.nodup_names).symm
    _ = (inserted.map Prod.fst).toFinset.card := by rw [hnames]

theorem isMapOf (h : Binds a inserted) : IsMapOf a inserted where
  nodup_names := h.nodup_names
  mem_names_iff := h.mem_names_iff
  pairwise_names := h.pairwise_names
  get?_eq_some_iff name _ := by rw [h.get? name, lastValue?_eq_some_iff]
  get?_eq_none_iff name := by rw [h.get? name, lastValue?_eq_none_iff]
  size_eq := h.size_eq

end Binds

namespace Arguments

/-! ## The answer to an insert -/

theorem fst_bindEntry (name : String) (value : Value) (entries : List (String × Value)) :
    (bindEntry name value entries).1 =
      (entries.find? fun e => e.1 == name).map Prod.snd := by
  induction entries with
  | nil => rfl
  | cons e es ih =>
    obtain ⟨n, v⟩ := e
    rw [bindEntry]
    by_cases h : n = name
    · simp [h]
    · rw [if_neg h, List.find?_cons_of_neg (by simpa using h)]
      exact ih

/-- An insert needs nothing of the arguments: a name may even be there twice. -/
theorem isInsert_getThenInsert? (a : Arguments) (name : String) (value : Value) :
    IsInsert a name value (a.getThenInsert? name value).1 (a.getThenInsert? name value).2 where
  answer_eq := fst_bindEntry name value a.entries
  get?_eq := a.get?_insert name value
  names_prefix := by
    change a.names <+: (a.insert name value).names
    rw [names_insert]
    split
    · exact List.prefix_refl _
    · exact List.prefix_append _ _

/-! ## The JSON form -/

/-- Where no name comes twice, each entry is found by its name. -/
theorem get?_of_mem_entries {a : Arguments} (h : a.names.Nodup) {e : String × Value}
    (he : e ∈ a.entries) : a.get? e.1 = some e.2 := by
  obtain ⟨before, after, hentries⟩ := List.append_of_mem he
  have hbefore : e.1 ∉ before.map Prod.fst := by
    rw [names, hentries, List.map_append, List.map_cons, List.nodup_middle, List.nodup_cons] at h
    exact fun hmem => h.1 (List.mem_append_left _ hmem)
  refine Option.map_eq_some_iff.mpr ⟨e, List.find?_eq_some_iff_append.mpr
    ⟨beq_self_eq_true e.1, before, after, hentries, fun e' he' => ?_⟩, rfl⟩
  have hne : e'.1 ≠ e.1 := fun heq => hbefore (List.mem_map.mpr ⟨e', he', heq⟩)
  simpa using hne

theorem isObjectOf_toJson {a : Arguments} (h : a.names.Nodup) : IsObjectOf a.toJson a := by
  refine ⟨_, rfl, ?_, ?_⟩
  · rw [names, List.map_map, List.forall₂_map_left_iff, List.forall₂_map_right_iff,
      List.forall₂_same]
    exact fun e he => ⟨Json.text?_ofText e.1, e.2, get?_of_mem_entries h he, rfl⟩
  · have hkeys : ((fun m => (Json.string m.1).text?) ∘
        fun f : String × Json => (Json.escape f.1.toList, f.2)) = some ∘ Prod.fst :=
      funext fun f => Json.text?_ofText f.1
    rw [List.map_map, hkeys, ← List.map_map]
    refine List.Nodup.map (Option.some_injective _) ?_
    rw [List.map_map]
    exact h

/-! ## Inserts one after the other -/

/-- It makes no difference which entries were collected and which were inserted after that. -/
theorem afterInserts_ofList (start inserts : List (String × Value)) :
    (ofList start).afterInserts inserts = ofList (start ++ inserts) := by
  rw [ofList, ofList, List.foldl_append]
  rfl

/-- Arguments that are collected from a list and then changed by inserts are those collected from
the list and the inserts together. They map each name to the value of its last insert, with the
names in the order of their first inserts, and their JSON form is an object with just these members.
Every further insert answers with the value that its name has, and changes no other value and no
place. -/
theorem ordered_after_inserts (start inserts : List (String × Value)) :
    let a := (ofList start).afterInserts inserts
    a = ofList (start ++ inserts) ∧ IsMapOf a (start ++ inserts) ∧ IsObjectOf a.toJson a ∧
      ∀ name value,
        IsInsert a name value (a.getThenInsert? name value).1 (a.getThenInsert? name value).2 := by
  intro a
  have ha : a = ofList (start ++ inserts) := afterInserts_ofList start inserts
  have hbinds : Binds a (start ++ inserts) := ha ▸ binds_ofList _
  exact ⟨ha, hbinds.isMapOf, isObjectOf_toJson hbinds.nodup_names, a.isInsert_getThenInsert?⟩

/-- A name that is bound again keeps its place. -/
example :
    (ofList [("a", .bool true), ("b", .bool false)]).getThenInsert? "a" (.str "x") =
      (some (.bool true), ⟨[("a", .str "x"), ("b", .bool false)]⟩) :=
  rfl

end Arguments

end CommandScript
