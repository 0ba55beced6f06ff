import LinkGraph.Proofs.Json.Members
import LinkGraph.Schema.Document

namespace LinkGraph.Schema

theorem mem_strings {name : String} {items : List Json} :
    name ∈ strings (.arr items) ↔ .str name ∈ items := by
  rw [strings, List.mem_filterMap]
  constructor
  · rintro ⟨j, hj, hname⟩
    cases j <;> cases hname
    exact hj
  · exact fun h => ⟨.str name, h, rfl⟩

def itemsIn (j : Json) : Schema ⊕ List Schema :=
  match elementsIn j with
  | some items => .inr items
  | none => .inl (ofJson j)

theorem propertiesOf_eq (members : List (String × Json)) :
    propertiesOf members = (Json.member? "properties" members).map propertiesIn := by
  induction members with
  | nil => rfl
  | cons m rest ih =>
      obtain ⟨key, j⟩ := m
      rw [propertiesOf]
      split
      · subst key
        rw [Json.member?_cons_self]
        rfl
      · rename_i hkey
        rw [Json.member?_cons_of_ne (Ne.symm hkey), ih]

theorem itemsOf_eq (members : List (String × Json)) :
    itemsOf members = (Json.member? "items" members).map itemsIn := by
  induction members with
  | nil => rfl
  | cons m rest ih =>
      obtain ⟨key, j⟩ := m
      rw [itemsOf]
      split
      · subst key
        rw [Json.member?_cons_self, Option.map_some, itemsIn]
        cases elementsIn j <;> rfl
      · rename_i hkey
        rw [Json.member?_cons_of_ne (Ne.symm hkey), ih]

theorem ofMembers_eq_map (members : List (String × Json)) :
    ofMembers members = members.map fun m => (m.1, ofJson m.2) := by
  induction members with
  | nil => rfl
  | cons m rest ih => rw [ofMembers, ih, List.map_cons]

theorem ofElements_eq_map (items : List Json) : ofElements items = items.map ofJson := by
  induction items with
  | nil => rfl
  | cons j rest ih => rw [ofElements, ih, List.map_cons]

end LinkGraph.Schema
