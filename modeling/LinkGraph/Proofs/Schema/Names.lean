import LinkGraph.Proofs.Json.Keys
import LinkGraph.Proofs.Schema.Document
import LinkGraph.Proofs.Schema.Siblings
import Std.Data.String.ToNat

namespace LinkGraph

namespace Forest

variable {α β : Type} {name : α → String} {f g : Forest α} {a b : α}

/-- No two trees that stand side by side have one name, neither at the top nor below. -/
def Apart (name : α → String) : Forest α → Prop
  | nil => True
  | cons a below next =>
      (∀ b ∈ next.roots, name a ≠ name b) ∧ below.Apart name ∧ next.Apart name

theorem apart_leaf (a : α) : (leaf a).Apart name := ⟨nofun, trivial, trivial⟩

theorem apart_append (hf : f.Apart name) (hg : g.Apart name)
    (h : ∀ a ∈ f.roots, ∀ b ∈ g.roots, name a ≠ name b) : (f ++ g).Apart name := by
  induction f with
  | nil => exact hg
  | cons a below next _ ih =>
      rw [cons_append]
      refine ⟨fun b hb => ?_, hf.2.1, ih hf.2.2 fun c hc => h c (List.mem_cons_of_mem a hc)⟩
      rw [roots_append, List.mem_append] at hb
      exact hb.elim (hf.1 b) (h a List.mem_cons_self b)

theorem apart_map {k : β → α} {f : Forest β} (h : (f.map k).Apart name) :
    f.Apart fun b => name (k b) := by
  induction f with
  | nil => trivial
  | cons b below next ihBelow ihNext =>
      refine ⟨fun c hc => h.1 (k c) ?_, ihBelow h.2.1, ihNext h.2.2⟩
      rw [roots_map]
      exact List.mem_map_of_mem hc

theorem Apart.eq_of_name (h : f.Apart name) (ha : a ∈ f.roots) (hb : b ∈ f.roots)
    (hname : name a = name b) : a = b := by
  induction f with
  | nil => cases ha
  | cons c below next _ ih =>
      rcases List.mem_cons.mp ha with rfl | ha'
      · rcases List.mem_cons.mp hb with rfl | hb'
        · rfl
        · exact absurd hname (h.1 b hb')
      · rcases List.mem_cons.mp hb with rfl | hb'
        · exact absurd hname.symm (h.1 a ha')
        · exact ih h.2.2 ha' hb'

end Forest

theorem Site.itemName_inj {name : String} {i j : Nat} (h : itemName name i = itemName name j) :
    i = j := by
  rw [itemName, itemName, String.append_left_inj, String.append_right_inj] at h
  exact Nat.repr_injective h

namespace Schema

inductive DistinctNames : Schema → Prop where
  | boolean (b : Bool) : DistinctNames (.boolean b)
  | object {title : Option String} {properties : List (String × Schema)}
      {required : Std.ExtTreeSet String} (nodup : (properties.map Prod.fst).Nodup)
      (properties_distinct : ∀ p ∈ properties, DistinctNames p.2) :
      DistinctNames (.object title properties required)
  | list {title : Option String} {item : Schema} (item_distinct : DistinctNames item) :
      DistinctNames (.list title item)
  | tuple {title : Option String} {items : List Schema}
      (items_distinct : ∀ s ∈ items, DistinctNames s) : DistinctNames (.tuple title items)
  | string (title : Option String) : DistinctNames (.string title)
  | number (title : Option String) : DistinctNames (.number title)
  | other : DistinctNames .other

def Parts.DistinctNames (parts : Parts) : Prop :=
  (∀ properties ∈ parts.properties,
    (properties.map Prod.fst).Nodup ∧ ∀ p ∈ properties, p.2.DistinctNames) ∧
  (∀ item, parts.items = some (.inl item) → item.DistinctNames) ∧
  ∀ items, parts.items = some (.inr items) → ∀ s ∈ items, s.DistinctNames

theorem Parts.DistinctNames.classify {parts : Parts} (h : parts.DistinctNames)
    (types : List String) (title : Option String) (required : Std.ExtTreeSet String) :
    (classify types title required parts).DistinctNames := by
  obtain ⟨hproperties, hitem, hitems⟩ := h
  obtain ⟨properties, items⟩ := parts
  rw [Schema.classify]
  split
  · cases properties with
    | none => exact .object List.nodup_nil nofun
    | some properties =>
        obtain ⟨nodup, distinct⟩ := hproperties properties rfl
        exact .object nodup distinct
  · split
    · rcases items with _ | item | items
      · exact .list (.boolean true)
      · exact .list (hitem item rfl)
      · exact .tuple (hitems items rfl)
    · split
      · exact .string title
      · split
        · exact .number title
        · exact .other

structure Reads (j : Json) : Prop where
  schema : (ofJson j).DistinctNames
  nodup : ((propertiesIn j).map Prod.fst).Nodup
  properties : ∀ p ∈ propertiesIn j, p.2.DistinctNames
  items : ∀ items ∈ elementsIn j, ∀ s ∈ items, s.DistinctNames

theorem reads_obj {members : List (String × Json)} (nodup : (members.map Prod.fst).Nodup)
    (h : ∀ m ∈ members, Reads m.2) : Reads (.obj members) := by
  have hparts : Parts.DistinctNames
      { properties := propertiesOf members, items := itemsOf members } := by
    refine ⟨fun properties hproperties => ?_, fun item hitem => ?_, fun items hitems => ?_⟩
    · rw [propertiesOf_eq] at hproperties
      obtain ⟨j, hj, rfl⟩ := Option.map_eq_some_iff.mp hproperties
      have hmem := (Json.member?_eq_some_iff nodup).mp hj
      exact ⟨(h _ hmem).nodup, (h _ hmem).properties⟩
    · rw [itemsOf_eq] at hitem
      obtain ⟨j, hj, hitem⟩ := Option.map_eq_some_iff.mp hitem
      have hmem := (Json.member?_eq_some_iff nodup).mp hj
      cases helements : elementsIn j with
      | none =>
          rw [itemsIn, helements] at hitem
          cases hitem
          exact (h _ hmem).schema
      | some elements =>
          rw [itemsIn, helements] at hitem
          cases hitem
    · rw [itemsOf_eq] at hitems
      obtain ⟨j, hj, hitems⟩ := Option.map_eq_some_iff.mp hitems
      have hmem := (Json.member?_eq_some_iff nodup).mp hj
      cases helements : elementsIn j with
      | none =>
          rw [itemsIn, helements] at hitems
          cases hitems
      | some elements =>
          rw [itemsIn, helements] at hitems
          cases hitems
          exact (h _ hmem).items items helements
  constructor
  · rw [ofJson]
    exact hparts.classify _ _ _
  · rw [propertiesIn, ofMembers_eq_map, List.map_map]
    exact nodup
  · rw [propertiesIn, ofMembers_eq_map]
    intro p hp
    obtain ⟨m, hm, rfl⟩ := List.mem_map.mp hp
    exact (h m hm).schema
  · rintro _ ⟨⟩

theorem reads_of_distinctKeys {j : Json} (h : j.DistinctKeys) : Reads j := by
  induction h with
  | null | num | str => exact ⟨.other, List.nodup_nil, nofun, nofun⟩
  | bool b => exact ⟨.boolean b, List.nodup_nil, nofun, nofun⟩
  | arr _ ih =>
      refine ⟨.other, List.nodup_nil, nofun, ?_⟩
      rintro _ ⟨⟩ s hs
      rw [ofElements_eq_map] at hs
      obtain ⟨j, hj, rfl⟩ := List.mem_map.mp hs
      exact (ih j hj).schema
  | obj nodup _ ih => exact reads_obj nodup ih

theorem DistinctNames.ofJson {j : Json} (h : j.DistinctKeys) : (ofJson j).DistinctNames :=
  (reads_of_distinctKeys h).schema

theorem name_of_propertiesOutline {names : Std.ExtTreeSet String}
    {properties : List (String × Schema)} {e : Entity}
    (h : e ∈ (propertiesOutline names properties).roots) : e.name ∈ properties.map Prod.fst := by
  induction properties with
  | nil => cases h
  | cons p rest ih =>
      rw [propertiesOutline, Forest.roots_append] at h
      rcases List.mem_append.mp h with h | h
      · rw [(roots_outline h).1]
        exact List.mem_cons_self
      · exact List.mem_cons_of_mem _ (ih h)

theorem name_of_itemsOutline {name : String} {index : Nat} {items : List Schema} {e : Entity}
    (h : e ∈ (itemsOutline name index items).roots) :
    ∃ i, index ≤ i ∧ e.name = Site.itemName name i := by
  induction items generalizing index with
  | nil => cases h
  | cons s rest ih =>
      rw [itemsOutline, Forest.roots_append] at h
      rcases List.mem_append.mp h with h | h
      · exact ⟨index, Nat.le_refl index, (roots_outline h).1⟩
      · obtain ⟨i, hi, hname⟩ := ih h
        exact ⟨i, Nat.le_of_succ_le hi, hname⟩

theorem apart_propertiesOutline {names : Std.ExtTreeSet String}
    {properties : List (String × Schema)} (nodup : (properties.map Prod.fst).Nodup)
    (h : ∀ p ∈ properties, ∀ name required, (p.2.outline name required).Apart Entity.name) :
    (propertiesOutline names properties).Apart Entity.name := by
  induction properties with
  | nil => trivial
  | cons p rest ih =>
      obtain ⟨hfresh, hrest⟩ := List.nodup_cons.mp nodup
      rw [propertiesOutline]
      refine Forest.apart_append (h p List.mem_cons_self _ _)
        (ih hrest fun q hq => h q (List.mem_cons_of_mem p hq)) fun e he d hd => ?_
      rw [(roots_outline he).1]
      intro heq
      exact hfresh (heq ▸ name_of_propertiesOutline hd)

theorem apart_itemsOutline {name : String} {index : Nat} {items : List Schema}
    (h : ∀ s ∈ items, ∀ name required, (s.outline name required).Apart Entity.name) :
    (itemsOutline name index items).Apart Entity.name := by
  induction items generalizing index with
  | nil => trivial
  | cons s rest ih =>
      rw [itemsOutline]
      refine Forest.apart_append (h s List.mem_cons_self _ _)
        (ih fun t ht => h t (List.mem_cons_of_mem s ht)) fun e he d hd => ?_
      obtain ⟨i, hi, hname⟩ := name_of_itemsOutline hd
      rw [(roots_outline he).1, hname]
      intro heq
      have : index = i := Site.itemName_inj heq
      omega

theorem DistinctNames.apart_outline {s : Schema} (h : s.DistinctNames) (name : String)
    (required : Bool) : (s.outline name required).Apart Entity.name := by
  induction h generalizing name required with
  | boolean | string | number =>
      rw [outline]
      exact Forest.apart_leaf _
  | object nodup _ ih =>
      rw [outline]
      exact ⟨nofun, apart_propertiesOutline nodup ih, trivial⟩
  | list _ ih =>
      rw [outline]
      exact ih name required
  | tuple _ ih =>
      rw [outline]
      exact ⟨nofun, apart_itemsOutline ih, trivial⟩
  | other => trivial

theorem DistinctNames.apart_skeleton {s : Schema} (h : s.DistinctNames) :
    s.skeleton.Apart Entity.name := h.apart_outline _ _

end Schema

end LinkGraph
