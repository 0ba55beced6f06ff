import LinkGraph.Proofs.Schema.Outline

namespace LinkGraph

namespace Forest

theorem roots_append {α : Type} (f g : Forest α) : (f ++ g).roots = f.roots ++ g.roots := by
  induction f with
  | nil => rfl
  | cons a below next _ ih => rw [cons_append, roots, ih, roots, List.cons_append]

theorem roots_map {α β : Type} (f : α → β) (g : Forest α) : (g.map f).roots = g.roots.map f := by
  induction g with
  | nil => rfl
  | cons a below next _ ih => rw [map, roots, ih, roots, List.map_cons]

/-- Whether a node is required depends only on its name and on the node above it. -/
def Consistent : Forest Entity → Prop
  | nil => True
  | cons _ below next =>
      (∃ required : String → Bool, ∀ e ∈ below.roots, e.required = required e.name) ∧
        below.Consistent ∧ next.Consistent

theorem consistent_append {f g : Forest Entity} (hf : f.Consistent) (hg : g.Consistent) :
    (f ++ g).Consistent := by
  induction f with
  | nil => exact hg
  | cons e below next _ ih => exact ⟨hf.1, hf.2.1, ih hf.2.2⟩

theorem consistent_leaf (e : Entity) : (leaf e).Consistent :=
  ⟨⟨fun _ => false, fun _ h => (nomatch h)⟩, trivial, trivial⟩

end Forest

namespace Schema

theorem roots_outline {s : Schema} {name : String} {required : Bool} {e : Entity}
    (h : e ∈ (s.outline name required).roots) : e.name = name ∧ e.required = required :=
  match s with
  | .boolean _ | .string _ | .number _ | .object _ _ _ | .tuple _ _ => by
      rw [outline] at h
      rw [List.mem_singleton.mp h]
      exact ⟨rfl, rfl⟩
  | .list _ item => by
      rw [outline] at h
      exact roots_outline h
  | .other => (nomatch h)

theorem roots_propertiesOutline {names : Std.ExtTreeSet String}
    {properties : List (String × Schema)} {e : Entity}
    (h : e ∈ (propertiesOutline names properties).roots) :
    e.required = names.contains e.name := by
  induction properties with
  | nil => cases h
  | cons p rest ih =>
      rw [propertiesOutline, Forest.roots_append] at h
      rcases List.mem_append.mp h with h | h
      · obtain ⟨hname, hrequired⟩ := roots_outline h
        rw [hname, hrequired]
      · exact ih h

theorem roots_itemsOutline {name : String} {index : Nat} {items : List Schema} {e : Entity}
    (h : e ∈ (itemsOutline name index items).roots) : e.required = false := by
  induction items generalizing index with
  | nil => cases h
  | cons s rest ih =>
      rw [itemsOutline, Forest.roots_append] at h
      rcases List.mem_append.mp h with h | h
      · exact (roots_outline h).2
      · exact ih h

mutual

theorem consistent_outline (s : Schema) (name : String) (required : Bool) :
    (s.outline name required).Consistent :=
  match s with
  | .boolean _ | .string _ | .number _ => by
      rw [outline]
      exact Forest.consistent_leaf _
  | .object _ properties names => by
      rw [outline]
      refine ⟨⟨names.contains, fun _ h => roots_propertiesOutline h⟩, ?_, trivial⟩
      exact consistent_propertiesOutline names properties
  | .list _ item => by
      rw [outline]
      exact consistent_outline item name required
  | .tuple _ items => by
      rw [outline]
      refine ⟨⟨fun _ => false, fun _ h => roots_itemsOutline h⟩, ?_, trivial⟩
      exact consistent_itemsOutline name 0 items
  | .other => trivial

theorem consistent_propertiesOutline (names : Std.ExtTreeSet String)
    (properties : List (String × Schema)) : (propertiesOutline names properties).Consistent :=
  match properties with
  | [] => trivial
  | (name, s) :: rest => by
      rw [propertiesOutline]
      exact Forest.consistent_append (consistent_outline s name _)
        (consistent_propertiesOutline names rest)

theorem consistent_itemsOutline (name : String) (index : Nat) (items : List Schema) :
    (itemsOutline name index items).Consistent :=
  match items with
  | [] => trivial
  | s :: rest => by
      rw [itemsOutline]
      exact Forest.consistent_append (consistent_outline s _ false)
        (consistent_itemsOutline name (index + 1) rest)

end

theorem consistent_skeleton (s : Schema) : s.skeleton.Consistent := consistent_outline s _ _

end Schema

end LinkGraph
