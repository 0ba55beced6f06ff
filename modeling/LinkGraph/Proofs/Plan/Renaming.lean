import LinkGraph.Proofs.Plan.Supply

namespace LinkGraph

variable (f : LinkId → LinkId)

def Node.map (n : Node) : Node := ⟨f n.kind, n.source.map f, n.dest.map f⟩

def Operation.map : Operation → Operation
  | .insertNode id node => .insertNode (f id) (node.map f)
  | .insertValue target value => .insertValue (f target) value

def Pool.map (p : Pool) : Pool := { p with next := p.next.map f }

def Place.map (place : Place) : Place := { place with parent := place.parent.map f }

def Site.map (site : Site) : Site := ⟨f site.container, site.kinds.map f⟩

def Plan.map (plan : Plan) : Plan := ⟨plan.root.map f, plan.batch.map (Operation.map f)⟩

/-- The renaming that gives 0 to the container, 1 to 7 to the kinds, and the ids after these to
what a list holds, in its order. -/
def Site.naming (site : Site) (ids : List LinkId) (id : LinkId) : LinkId :=
  (site.container :: site.kinds.ids ++ ids).getD id 0

theorem KindTable.get_map (table : KindTable) (kind : Kind) :
    (table.map f).get kind = f (table.get kind) := by
  cases kind <;> rfl

theorem Operation.inserted?_map (op : Operation) : (op.map f).inserted? = op.inserted?.map f := by
  cases op <;> rfl

theorem Pool.remaining_map (p : Pool) : (p.map f).remaining = p.remaining := List.length_map f

theorem Pool.ofList_map (ids : List LinkId) : (ofList ids).map f = ofList (ids.map f) := by
  simp [map, ofList]

theorem Pool.finish_map (p : Pool) : (p.map f).finish = p.finish := by
  simp [finish, isEmpty, remaining, map]

namespace Numbered

def map (a : Numbered) : Numbered where
  name := a.name
  valueType := a.valueType
  type := f a.type
  typeEdge := f a.typeEdge
  value := f a.value
  valueEdge := f a.valueEdge
  mark := a.mark.map (Prod.map f f)

theorem entity_map (a : Numbered) : (a.map f).entity = a.entity := by simp [entity, map]

theorem ids_map (a : Numbered) : (a.map f).ids = a.ids.map f := by
  obtain ⟨_, _, _, _, _, _, mark⟩ := a
  cases mark <;> rfl

theorem batch_map (site : Site) (parent : Option LinkId) (a : Numbered) :
    (a.map f).batch (site.map f) (parent.map f) = (a.batch site parent).map (Operation.map f) := by
  obtain ⟨name, kind, type, typeEdge, value, valueEdge, mark⟩ := a
  have hkind : (site.map f).kinds.get kind = f (site.kinds.get kind) := site.kinds.get_map f kind
  simp only [batch, map, hkind, List.map_append]
  cases mark <;> rfl

end Numbered

namespace Forest

theorem entities_map (g : Forest Numbered) : (g.map (Numbered.map f)).entities = g.entities := by
  induction g with
  | nil => rfl
  | cons a below next ihBelow ihNext =>
      simp only [entities, map, a.entity_map f] at ihBelow ihNext ⊢
      rw [ihBelow, ihNext]

theorem ids_map (g : Forest Numbered) : (g.map (Numbered.map f)).ids = g.ids.map f := by
  induction g with
  | nil => rfl
  | cons a below next ihBelow ihNext =>
      rw [map, ids_cons, ids_cons, List.map_append, List.map_append, ihBelow, ihNext, a.ids_map]

theorem batch_map (site : Site) (parent : Option LinkId) (g : Forest Numbered) :
    (g.map (Numbered.map f)).batch (site.map f) (parent.map f) =
      (g.batch site parent).map (Operation.map f) := by
  induction g generalizing parent with
  | nil => rfl
  | cons a below next ihBelow ihNext =>
      have hbelow := ihBelow (some a.type)
      rw [map, batch, batch, List.map_append, List.map_append, ← ihNext, ← hbelow, a.batch_map]
      rfl

end Forest

theorem Site.build_map (site : Site) (place : Place) (s : Schema) (p : Pool) :
    ((site.map f).build (place.map f) s).run (p.map f) =
      match (site.build place s).run p with
      | .ok batch rest => .ok (batch.map (Operation.map f)) (rest.map f)
      | .error e rest => .error e (rest.map f) := by
  cases h : (site.build place s).run p with
  | ok batch rest =>
      obtain ⟨g, entities, rfl, rfl⟩ := build_eq_ok_iff.mp h
      refine build_eq_ok_iff.mpr ⟨g.map (Numbered.map f), ?_, ?_, ?_⟩
      · exact (g.entities_map f).trans entities
      · simp only [Pool.map, List.map_append, g.ids_map f]
      · exact (g.batch_map f site place.parent).symm
  | error e rest =>
      obtain ⟨hshort, rfl, rfl⟩ := build_eq_error_iff.mp h
      exact build_eq_error_iff.mpr ⟨(p.remaining_map f).symm ▸ hshort, rfl, rfl⟩

namespace Plan

theorem compile_map (s : Schema) (p : Pool) (site : Site) :
    compile s (p.map f) (site.map f) = (compile s p site).map (Plan.map f) := by
  have hbuild := site.build_map f (.root (rootName s)) s p
  rw [compile, compile]
  change (((site.map f).build (.root (rootName s)) s).run (p.map f)) = _ at hbuild
  rw [hbuild]
  cases (site.build (.root (rootName s)) s).run p with
  | error e rest => rfl
  | ok batch rest =>
      simp only [rest.finish_map f]
      cases rest.finish with
      | error e => rfl
      | ok u =>
          have hroot : (batch.map (Operation.map f)).head?.bind Operation.inserted? =
              (batch.head?.bind Operation.inserted?).map f := by
            cases batch with
            | nil => rfl
            | cons op _ => exact op.inserted?_map f
          simp only [hroot]
          cases s.hasNode <;> rfl

theorem naming_site (site : Site) (ids : List LinkId) :
    (⟨0, .core⟩ : Site).map (site.naming ids) = site := rfl

theorem naming_range' (site : Site) (ids : List LinkId) :
    (List.range' 8 ids.length).map (site.naming ids) = ids := by
  apply List.ext_getElem
  · simp
  · intro i _ hi
    have hnaming : site.naming ids (i + 8) = ids.getD i 0 := rfl
    rw [List.getElem_map, List.getElem_range', Nat.one_mul, Nat.add_comm, hnaming,
      List.getD_eq_getElem?_getD, List.getElem?_eq_getElem hi, Option.getD_some]

/-- What is built does not depend on what the ids are: from renamed ids, also when different ones
are given the same name, comes the renamed result. So all that a schema compiles to with a number
of ids is one plan, on each site and with each list of that many ids under other names. -/
theorem renaming_commutes (site : Site) (s : Schema) :
    (∀ f place p, ((site.map f).build (place.map f) s).run (p.map f) =
      match (site.build place s).run p with
      | .ok batch rest => .ok (batch.map (Operation.map f)) (rest.map f)
      | .error e rest => .error e (rest.map f)) ∧
    (∀ f p, compile s (p.map f) (site.map f) = (compile s p site).map (Plan.map f)) ∧
    ∀ ids, compile s (.ofList ids) site =
      (compile s (.consecutive 8 ids.length) ⟨0, .core⟩).map (Plan.map (site.naming ids)) := by
  refine ⟨fun f place p => site.build_map f place s p, fun f p => compile_map f s p site, ?_⟩
  intro ids
  rw [← compile_map, Pool.consecutive, Pool.ofList_map, naming_site, naming_range']

end Plan

end LinkGraph
