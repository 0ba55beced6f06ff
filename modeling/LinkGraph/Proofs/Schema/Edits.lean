import LinkGraph.Plan.Basic
import LinkGraph.Proofs.Schema.Document
import Mathlib.Logic.Relation

namespace LinkGraph.Schema

def keywords : List String := ["type", "title", "properties", "required", "items"]

/-- Two values with which a keyword says the same. -/
inductive Restated : String → Json → Json → Prop where
  | typeList (name : String) : Restated "type" (.str name) (.arr [.str name])
  /-- Only which strings are in the list counts: neither their order nor how often they are there,
  nor what else is. -/
  | names {key : String} {items items' : List Json} (listed : key = "type" ∨ key = "required")
      (same : ∀ name, .str name ∈ items ↔ .str name ∈ items') :
      Restated key (.arr items) (.arr items')
  | noProperties {j : Json} (h : ∀ members, j ≠ .obj members) :
      Restated "properties" j (.obj [])

inductive Void : String → Json → Prop where
  | type {j : Json} (name : ∀ s, j ≠ .str s) (list : ∀ items, j ≠ .arr items) : Void "type" j
  | title {j : Json} (h : ∀ s, j ≠ .str s) : Void "title" j
  | required {j : Json} (h : ∀ items, j ≠ .arr items) : Void "required" j

/-- One edit at one place where a document states a schema: at its root, at a property, at the
schema of all elements or at that of one element, and from there on inwards. -/
inductive Edit : Json → Json → Prop where
  | others {members members' : List (String × Json)}
      (h : (members.filter fun m => keywords.contains m.1) =
        members'.filter fun m => keywords.contains m.1) :
      Edit (.obj members) (.obj members')
  | order {members members' : List (String × Json)} (distinct : (members.map Prod.fst).Nodup)
      (h : members.Perm members') : Edit (.obj members) (.obj members')
  | restate {front back : List (String × Json)} {key : String} {j j' : Json}
      (h : Restated key j j') :
      Edit (.obj (front ++ (key, j) :: back)) (.obj (front ++ (key, j') :: back))
  | drop {front back : List (String × Json)} {key : String} {j : Json} (h : Void key j)
      (absent : key ∉ back.map Prod.fst) :
      Edit (.obj (front ++ (key, j) :: back)) (.obj (front ++ back))
  | property {front back before after : List (String × Json)} {name : String} {j j' : Json}
      (h : Edit j j') :
      Edit (.obj (front ++ ("properties", .obj (before ++ (name, j) :: after)) :: back))
        (.obj (front ++ ("properties", .obj (before ++ (name, j') :: after)) :: back))
  | items {front back : List (String × Json)} {j j' : Json} (h : Edit j j') :
      Edit (.obj (front ++ ("items", j) :: back)) (.obj (front ++ ("items", j') :: back))
  | element {front back : List (String × Json)} {before after : List Json} {j j' : Json}
      (h : Edit j j') :
      Edit (.obj (front ++ ("items", .arr (before ++ j :: after)) :: back))
        (.obj (front ++ ("items", .arr (before ++ j' :: after)) :: back))

/-- What two documents have under a keyword, if anything, is read alike. -/
structure Alike (key : String) (o o' : Option Json) : Prop where
  types : key = "type" → ∀ name, name ∈ typeNames o ↔ name ∈ typeNames o'
  title : key = "title" → o.bind Json.asString? = o'.bind Json.asString?
  required : key = "required" → requiredNames o = requiredNames o'
  properties : key = "properties" → o.map propertiesIn = o'.map propertiesIn
  items : key = "items" → o.map itemsIn = o'.map itemsIn

theorem Alike.refl (key : String) (o : Option Json) : Alike key o o :=
  ⟨fun _ _ => Iff.rfl, fun _ => rfl, fun _ => rfl, fun _ => rfl, fun _ => rfl⟩

theorem requiredNames_eq {items items' : List Json}
    (same : ∀ name, .str name ∈ items ↔ .str name ∈ items') :
    requiredNames (some (.arr items)) = requiredNames (some (.arr items')) := by
  refine Std.ExtTreeSet.ext_mem fun name => ?_
  simp only [requiredNames, Std.ExtTreeSet.mem_ofList, List.contains_iff_mem, mem_strings, same]

theorem Restated.alike {key : String} {j j' : Json} (h : Restated key j j') :
    Alike key (some j) (some j') := by
  cases h with
  | typeList name =>
      refine ⟨fun _ _ => Iff.rfl, ?_, ?_, ?_, ?_⟩ <;> exact nofun
  | names listed same =>
      refine ⟨fun _ name => ?_, fun _ => rfl, fun _ => requiredNames_eq same, ?_, ?_⟩
      · exact mem_strings.trans ((same name).trans mem_strings.symm)
      · rcases listed with rfl | rfl <;> exact nofun
      · rcases listed with rfl | rfl <;> exact nofun
  | noProperties h =>
      refine ⟨nofun, nofun, nofun, fun _ => congrArg some ?_, nofun⟩
      cases j with
      | obj members => exact absurd rfl (h members)
      | null | bool | num | str | arr => rfl

theorem Void.alike {key : String} {j : Json} (h : Void key j) : Alike key (some j) none := by
  cases h with
  | type name list =>
      refine ⟨fun _ n => ?_, nofun, nofun, nofun, nofun⟩
      cases j with
      | str s => exact absurd rfl (name s)
      | arr items => exact absurd rfl (list items)
      | null | bool | num | obj => exact Iff.rfl
  | title h =>
      refine ⟨nofun, fun _ => ?_, nofun, nofun, nofun⟩
      cases j with
      | str s => exact absurd rfl (h s)
      | null | bool | num | arr | obj => rfl
  | required h =>
      refine ⟨nofun, nofun, fun _ => ?_, nofun, nofun⟩
      cases j with
      | arr items => exact absurd rfl (h items)
      | null | bool | num | str | obj => rfl

theorem classify_congr {types types' : List String} (h : ∀ name, name ∈ types ↔ name ∈ types')
    (title : Option String) (required : Std.ExtTreeSet String) (parts : Parts) :
    classify types title required parts = classify types' title required parts := by
  simp only [classify, h]

theorem ofJson_eq_of_alike {members members' : List (String × Json)}
    (h : ∀ key, Alike key (Json.member? key members) (Json.member? key members')) :
    ofJson (.obj members) = ofJson (.obj members') := by
  rw [ofJson, ofJson, propertiesOf_eq, propertiesOf_eq, itemsOf_eq, itemsOf_eq,
    (h "title").title rfl, (h "required").required rfl, (h "properties").properties rfl,
    (h "items").items rfl]
  exact classify_congr ((h "type").types rfl) _ _ _

theorem Alike.append {front back back' : List (String × Json)} {key : String}
    (h : Alike key (Json.member? key back) (Json.member? key back')) :
    Alike key (Json.member? key (front ++ back)) (Json.member? key (front ++ back')) := by
  rw [Json.member?_append, Json.member?_append]
  cases Json.member? key front with
  | some j => exact .refl key _
  | none => exact h

theorem ofJson_replace {front back : List (String × Json)} {key : String} {j j' : Json}
    (h : Alike key (some j) (some j')) :
    ofJson (.obj (front ++ (key, j) :: back)) = ofJson (.obj (front ++ (key, j') :: back)) := by
  refine ofJson_eq_of_alike fun other => .append ?_
  by_cases hother : other = key
  · subst hother
    rw [Json.member?_cons_self, Json.member?_cons_self]
    exact h
  · rw [Json.member?_cons_of_ne hother, Json.member?_cons_of_ne hother]
    exact .refl other _

theorem ofJson_drop {front back : List (String × Json)} {key : String} {j : Json}
    (h : Alike key (some j) none) (absent : key ∉ back.map Prod.fst) :
    ofJson (.obj (front ++ (key, j) :: back)) = ofJson (.obj (front ++ back)) := by
  refine ofJson_eq_of_alike fun other => .append ?_
  by_cases hother : other = key
  · subst hother
    rw [Json.member?_cons_self, Json.member?_eq_none absent]
    exact h
  · rw [Json.member?_cons_of_ne hother]
    exact .refl other _

theorem alike_properties {before after : List (String × Json)} {name : String} {j j' : Json}
    (h : ofJson j = ofJson j') :
    Alike "properties" (some (.obj (before ++ (name, j) :: after)))
      (some (.obj (before ++ (name, j') :: after))) := by
  refine ⟨nofun, nofun, nofun, fun _ => congrArg some ?_, nofun⟩
  simp only [propertiesIn, ofMembers_eq_map, List.map_append, List.map_cons, h]

theorem Edit.itemsIn_eq {j j' : Json} (edit : Edit j j') (h : ofJson j = ofJson j') :
    itemsIn j = itemsIn j' := by
  have hnone : elementsIn j = none ∧ elementsIn j' = none := by
    cases edit <;> exact ⟨rfl, rfl⟩
  rw [itemsIn, itemsIn, hnone.1, hnone.2, h]

theorem itemsIn_element {before after : List Json} {j j' : Json} (h : ofJson j = ofJson j') :
    itemsIn (.arr (before ++ j :: after)) = itemsIn (.arr (before ++ j' :: after)) := by
  simp only [itemsIn, elementsIn, ofElements_eq_map, List.map_append, List.map_cons, h]

theorem alike_items {j j' : Json} (h : itemsIn j = itemsIn j') :
    Alike "items" (some j) (some j') :=
  ⟨nofun, nofun, nofun, nofun, fun _ => congrArg some h⟩

theorem alike_of_keywords {members members' : List (String × Json)}
    (h : (members.filter fun m => keywords.contains m.1) =
      members'.filter fun m => keywords.contains m.1) (key : String) :
    Alike key (Json.member? key members) (Json.member? key members') := by
  cases hkey : keywords.contains key with
  | true =>
      rw [← Json.member?_filter hkey members, h, Json.member?_filter hkey members']
      exact .refl key _
  | false =>
      -- No other key is looked up.
      have hne : ∀ keyword ∈ keywords, key ≠ keyword := by
        rintro _ hmem rfl
        exact Bool.false_ne_true (hkey.symm.trans (List.contains_iff_mem.mpr hmem))
      constructor <;> intro heq <;> exact absurd heq (hne _ (by decide))

theorem Edit.ofJson_eq {j j' : Json} (h : Edit j j') : ofJson j = ofJson j' := by
  induction h with
  | others h => exact ofJson_eq_of_alike (alike_of_keywords h)
  | order distinct h =>
      refine ofJson_eq_of_alike fun key => ?_
      rw [Json.member?_perm distinct h key]
      exact .refl key _
  | restate h => exact ofJson_replace h.alike
  | drop h absent => exact ofJson_drop h.alike absent
  | property _ ih => exact ofJson_replace (alike_properties ih)
  | items h ih => exact ofJson_replace (alike_items (h.itemsIn_eq ih))
  | element _ ih => exact ofJson_replace (alike_items (itemsIn_element ih))

/-- Edits that say nothing new, one after the other and also undone again, leave the schema that a
document states, and so all that is made of it. -/
theorem edited_states_same {j j' : Json} (h : Relation.EqvGen Edit j j') :
    ofJson j = ofJson j' ∧ (ofJson j).demand = (ofJson j').demand ∧
      (ofJson j).hasNode = (ofJson j').hasNode ∧
      ∀ first site, Plan.preview (ofJson j) first site = Plan.preview (ofJson j') first site := by
  have hsame : ofJson j = ofJson j' := by
    induction h with
    | rel _ _ edit => exact edit.ofJson_eq
    | refl _ => rfl
    | symm _ _ _ ih => exact ih.symm
    | trans _ _ _ _ _ ih ih' => exact ih.trans ih'
  rw [hsame]
  exact ⟨rfl, rfl, rfl, fun _ _ => rfl⟩

theorem person_states_same :
    let name : Json := .obj [("title", .null), ("type", .str "string")]
    let person : Json := .obj [("required", .arr [.str "name", .null, .str "age", .str "name"]),
      ("description", .null), ("properties", .obj [("name", name), ("age", .bool true)])]
    let name' : Json := .obj [("type", .arr [.str "string"])]
    let person' : Json := .obj [("properties", .obj [("name", name'), ("age", .bool true)]),
      ("required", .arr [.str "age", .str "name"])]
    Relation.EqvGen Edit person person' ∧ ofJson person = ofJson person' := by
  intro name person name' person'
  have hname : Edit name (.obj [("type", .str "string")]) :=
    @Edit.drop [] _ _ _ (.title nofun) (by decide)
  have hname' : Edit (.obj [("type", .str "string")]) name' :=
    @Edit.restate [] [] _ _ _ (.typeList "string")
  have hrequired : Restated "required" (.arr [.str "name", .null, .str "age", .str "name"])
      (.arr [.str "age", .str "name"]) := .names (.inr rfl) (by simp)
  have h : Relation.EqvGen Edit person person' := by
    refine .trans _ _ _ (.rel _ _ (@Edit.restate [] _ _ _ _ hrequired)) ?_
    refine .trans _ _ _ (.rel _ _ (.order (by decide) (List.reverse_perm _).symm)) ?_
    refine .trans _ _ _ (.rel _ _ (@Edit.property [] _ [] _ _ _ _ hname)) ?_
    refine .trans _ _ _ (.rel _ _ (@Edit.property [] _ [] _ _ _ _ hname')) ?_
    exact .rel _ _ (.others rfl)
  exact ⟨h, (edited_states_same h).1⟩

end LinkGraph.Schema
