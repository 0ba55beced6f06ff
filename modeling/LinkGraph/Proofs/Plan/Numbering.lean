import LinkGraph.Proofs.Batch.Inserted
import LinkGraph.Proofs.Schema.Outline

namespace LinkGraph

/-- An entity with the ids drawn for it. A required one has a mark and the edge to the mark. -/
structure Numbered where
  name : String
  valueType : Kind
  type : LinkId
  typeEdge : LinkId
  value : LinkId
  valueEdge : LinkId
  mark : Option (LinkId × LinkId)
  deriving DecidableEq, Repr

namespace Numbered

def entity (a : Numbered) : Entity := ⟨a.name, a.valueType, a.mark.isSome⟩

def markIds (a : Numbered) : List LinkId := a.mark.elim [] fun (mark, edge) => [mark, edge]

def ids (a : Numbered) : List LinkId := [a.type, a.typeEdge, a.value, a.valueEdge] ++ a.markIds

def markBatch (site : Site) (parent : Option LinkId) (a : Numbered) : Batch :=
  a.mark.elim [] fun (mark, edge) =>
    site.contained (.anchored mark site.kinds.required parent) mark edge (a.name ++ "Required")

def batch (site : Site) (parent : Option LinkId) (a : Numbered) : Batch :=
  site.contained (.anchored a.type site.kinds.type parent) a.type a.typeEdge a.name ++
    site.contained (.edge a.value site.kinds.value a.type (site.kinds.get a.valueType))
      a.value a.valueEdge (a.name ++ "Value") ++
    a.markBatch site parent

theorem length_ids (a : Numbered) : a.ids.length = a.entity.demand := by
  cases h : a.mark <;>
    simp [ids, markIds, entity, Entity.demand, h, Schema.entityDemand, Schema.markDemand]

end Numbered

theorem Numbered.inserted_batch (site : Site) (parent : Option LinkId) (a : Numbered) :
    (a.batch site parent).inserted = a.ids := by
  obtain ⟨_, _, _, _, _, _, mark⟩ := a
  cases mark <;> rfl

theorem Numbered.length_batch (site : Site) (parent : Option LinkId) (a : Numbered) :
    2 * (a.batch site parent).length = 3 * a.ids.length := by
  obtain ⟨_, _, _, _, _, _, mark⟩ := a
  cases mark <;> rfl

namespace Forest

def ids : Forest Numbered → List LinkId
  | nil => []
  | cons a below next => a.ids ++ below.ids ++ next.ids

def entities (f : Forest Numbered) : Forest Entity := f.map Numbered.entity

def batch (site : Site) (parent : Option LinkId) : Forest Numbered → Batch
  | nil => []
  | cons a below next =>
      a.batch site parent ++ below.batch site (some a.type) ++ next.batch site parent

@[simp] theorem ids_cons (a : Numbered) (below next : Forest Numbered) :
    (cons a below next).ids = a.ids ++ below.ids ++ next.ids := rfl

theorem length_ids (f : Forest Numbered) : f.ids.length = f.entities.demand := by
  induction f with
  | nil => rfl
  | cons a below next ihBelow ihNext =>
      rw [ids_cons, List.length_append, List.length_append, ihBelow, ihNext, Numbered.length_ids]
      simp [entities, map]

theorem inserted_batch (site : Site) (parent : Option LinkId) (f : Forest Numbered) :
    (f.batch site parent).inserted = f.ids := by
  induction f generalizing parent with
  | nil => rfl
  | cons a below next ihBelow ihNext =>
      rw [batch, Batch.inserted_append, Batch.inserted_append, a.inserted_batch, ihBelow, ihNext,
        ids_cons]

theorem length_batch (site : Site) (parent : Option LinkId) (f : Forest Numbered) :
    2 * (f.batch site parent).length = 3 * f.ids.length := by
  induction f generalizing parent with
  | nil => rfl
  | cons a below next ihBelow ihNext =>
      have ha := a.length_batch site parent
      have hbelow := ihBelow (some a.type)
      have hnext := ihNext parent
      rw [batch, ids_cons]
      simp only [List.length_append]
      omega

end Forest

namespace Site

def raise (site : Site) (parent : Option LinkId) : Forest Entity → Draw Batch
  | .nil => return []
  | .cons e below next => do
      let (batch, node) ← site.entity ⟨parent, e.name, e.required⟩ (site.kinds.get e.valueType)
      return batch ++ (← site.raise (some node) below) ++ (← site.raise parent next)

theorem raise_append (site : Site) (parent : Option LinkId) (f g : Forest Entity) :
    site.raise parent (f ++ g) = do
      let batch ← site.raise parent f
      return batch ++ (← site.raise parent g) := by
  induction f with
  | nil => simp [raise]
  | cons e below next _ ih =>
      simp only [Forest.cons_append, raise, ih, bind_assoc, pure_bind, List.append_assoc]

mutual

/-- Only the entities of a schema decide what is built. -/
theorem build_eq_raise (site : Site) (place : Place) (s : Schema) :
    site.build place s = site.raise place.parent (s.outline place.name place.required) :=
  match s with
  | .boolean _ | .string _ | .number _ => by
      simp [build, Schema.outline, Forest.leaf, raise, KindTable.get]
  | .object _ properties names => by
      simp [build, Schema.outline, raise, KindTable.get,
        buildProperties_eq_raise site _ names properties]
  | .list _ item => by
      rw [build, Schema.outline]
      exact build_eq_raise site place item
  | .tuple _ items => by
      simp [build, Schema.outline, raise, KindTable.get,
        buildItems_eq_raise site _ place.name 0 items]
  | .other => rfl

theorem buildProperties_eq_raise (site : Site) (parent : LinkId) (names : Std.ExtTreeSet String)
    (properties : List (String × Schema)) :
    site.buildProperties parent names properties =
      site.raise (some parent) (Schema.propertiesOutline names properties) :=
  match properties with
  | [] => rfl
  | (name, s) :: rest => by
      rw [buildProperties, Schema.propertiesOutline, raise_append, build_eq_raise site _ s,
        buildProperties_eq_raise site parent names rest]

theorem buildItems_eq_raise (site : Site) (parent : LinkId) (name : String) (index : Nat)
    (items : List Schema) :
    site.buildItems parent name index items =
      site.raise (some parent) (Schema.itemsOutline name index items) :=
  match items with
  | [] => rfl
  | s :: rest => by
      rw [buildItems, Schema.itemsOutline, raise_append, build_eq_raise site _ s,
        buildItems_eq_raise site parent name (index + 1) rest]

end

end Site

end LinkGraph
