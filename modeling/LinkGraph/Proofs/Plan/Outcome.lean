import LinkGraph.Proofs.Plan.Drawing
import LinkGraph.Proofs.Schema.Siblings

namespace LinkGraph

namespace Schema

theorem outline_single (s : Schema) (name : String) (required : Bool) :
    s.outline name required = .nil ∨ ∃ e below, s.outline name required = .cons e below .nil :=
  match s with
  | .boolean _ | .string _ | .number _ | .object _ _ _ | .tuple _ _ => .inr ⟨_, _, rfl⟩
  | .list _ item => by
      rw [outline]
      exact outline_single item name required
  | .other => .inl rfl

end Schema

namespace Forest

def nodes (f : Forest Numbered) : List LinkId := f.roots.map Numbered.type

theorem head?_batch (site : Site) (parent : Option LinkId) (f : Forest Numbered) :
    (f.batch site parent).head?.bind Operation.inserted? = f.nodes.head? := by
  cases f <;> rfl

theorem entities_eq_nil_iff {f : Forest Numbered} : f.entities = .nil ↔ f = .nil := map_eq_nil_iff

theorem head?_nodes (f : Forest Numbered) : f.nodes.head? = f.ids.head? := by
  cases f <;> rfl

theorem single_of_entities {f : Forest Numbered} {s : Schema} (h : f.entities = s.skeleton) :
    f = .nil ∨ ∃ a below, f = .cons a below .nil ∧ a.mark = none := by
  cases f with
  | nil => exact .inl rfl
  | cons a below next =>
      have hroot : a.entity ∈ s.skeleton.roots := by
        rw [← h]
        exact List.mem_cons_self
      have hmark : a.mark.isSome = false := (Schema.roots_outline hroot).2
      rcases s.outline_single (Plan.rootName s) false with hs | ⟨e, _, hs⟩
      · cases h.trans hs
      · have hnext : next.map Numbered.entity = .nil := by
          have := h.trans hs
          simp only [entities, map, cons.injEq] at this
          exact this.2.2
        rw [map_eq_nil_iff.mp hnext]
        exact .inr ⟨a, below, rfl, by simpa using hmark⟩

theorem nodes_single {f : Forest Numbered} {s : Schema} (h : f.entities = s.skeleton) :
    f.nodes = f.nodes.head?.toList := by
  obtain rfl | ⟨a, below, rfl, -⟩ := single_of_entities h
  · rfl
  · rfl

end Forest

namespace Plan

/-- What compiling a schema with a list of ids comes to. -/
inductive Compiled (s : Schema) (ids : List LinkId) (site : Site) :
    Except PoolError Plan → Prop where
  | done {f : Forest Numbered} (entities : f.entities = s.skeleton) (drawn : f.ids = ids.reverse) :
      Compiled s ids site (.ok ⟨f.nodes.head?, f.batch site none⟩)
  | exhausted (h : ids.length < s.demand) : Compiled s ids site (.error (.exhausted ids.length))
  | undrained (h : s.demand < ids.length) :
      Compiled s ids site (.error (.undrained ids.length (ids.length - s.demand)))

theorem length_of_drawn {s : Schema} {ids : List LinkId} {f : Forest Numbered}
    (entities : f.entities = s.skeleton) (drawn : f.ids = ids.reverse) : ids.length = s.demand := by
  rw [← List.length_reverse, ← drawn, f.length_ids, entities, s.demand_skeleton]

theorem root_eq {s : Schema} {f : Forest Numbered} (site : Site) (h : f.entities = s.skeleton) :
    (if s.hasNode then (f.batch site none).head?.bind Operation.inserted? else none) =
      f.nodes.head? := by
  rw [f.head?_batch]
  cases hs : s.hasNode with
  | true => rfl
  | false =>
      rw [s.skeleton_eq_nil_iff.mpr hs, Forest.entities_eq_nil_iff] at h
      rw [h]
      rfl

theorem compile_compiled (s : Schema) (ids : List LinkId) (site : Site) :
    Compiled s ids site (compile s (.ofList ids) site) := by
  have h : Site.Raised site none s.skeleton (.ofList ids) _ :=
    site.build_raised (.root (rootName s)) s (.ofList ids)
  rw [compile]
  generalize (site.build (.root (rootName s)) s).run (.ofList ids) = r at h
  have hlength : (Pool.ofList ids).remaining = ids.length := List.length_reverse
  cases h with
  | short h =>
      refine .exhausted ?_
      rw [← s.demand_skeleton, ← hlength]
      exact h
  | @enough f rest entities drawn =>
      have hrest := Site.remaining_of_numbered drawn
      rw [entities, hlength] at hrest
      change ids.length = s.skeleton.demand + rest.length at hrest
      rw [s.demand_skeleton] at hrest
      cases rest with
      | nil =>
          change Compiled s ids site (.ok ⟨if s.hasNode then _ else none, f.batch site none⟩)
          rw [root_eq site entities]
          exact .done entities (drawn.trans (List.append_nil _)).symm
      | cons id rest =>
          change Compiled s ids site (.error (.undrained ids.length (rest.length + 1)))
          rw [List.length_cons] at hrest
          have hleft : rest.length + 1 = ids.length - s.demand := by omega
          rw [hleft]
          exact .undrained (by omega)

theorem length_of_compile {s : Schema} {ids : List LinkId} {site : Site} {plan : Plan}
    (h : compile s (.ofList ids) site = .ok plan) : ids.length = s.demand := by
  have hcompiled := compile_compiled s ids site
  rw [h] at hcompiled
  cases hcompiled with
  | done entities drawn => exact length_of_drawn entities drawn

theorem preview_done (s : Schema) (first : LinkId) (site : Site) :
    ∃ f : Forest Numbered, f.entities = s.skeleton ∧
      f.ids = (List.range' first s.demand).reverse ∧
      preview s first site = .ok ⟨f.nodes.head?, f.batch site none⟩ := by
  have h := compile_compiled s (List.range' first s.demand) site
  have hlength : (List.range' first s.demand).length = s.demand := List.length_range'
  rw [preview, Pool.consecutive]
  generalize compile s (.ofList (List.range' first s.demand)) site = r at h
  cases h with
  | done entities drawn => exact ⟨_, entities, drawn, rfl⟩
  | exhausted h => omega
  | undrained h => omega

end Plan

end LinkGraph
