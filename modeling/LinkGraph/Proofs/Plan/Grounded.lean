import LinkGraph.Proofs.Batch.Grounded
import LinkGraph.Proofs.Plan.Entries

namespace LinkGraph

variable {site : Site} {parent : Option LinkId} {known : LinkId → Prop}

/-- The edge to a node may start at the node itself, which is inserted by then. -/
theorem Held.grounded_batch {h : Held} (hkinds : ∀ kind, known (site.kinds.get kind))
    (hends : ∀ side x, (h.node site).follow side = some x → known x)
    (hcontainer : known site.container ∨ site.container = h.id) :
    (h.batch site).Grounded known := by
  have hnode : ∀ x ∈ (h.node site).references, known x := by
    intro x hx
    rcases Node.mem_references.mp hx with rfl | ⟨side, hside⟩
    · exact hkinds h.kind
    · exact hends side x hside
  have hedge : ∀ x ∈ (h.edgeNode site).references, known x ∨ some h.id = some x := by
    intro x hx
    rcases Node.mem_references.mp hx with rfl | ⟨_ | _, hside⟩
    · exact .inl (hkinds .contain)
    · obtain rfl : site.container = x := Option.some.inj hside
      exact hcontainer.imp_right fun heq => congrArg some heq.symm
    · exact .inr hside
  refine Batch.grounded_cons.mpr ⟨hnode, Batch.grounded_cons.mpr ⟨hedge, ?_⟩⟩
  refine Batch.grounded_cons.mpr ⟨fun x hx => ?_, Batch.grounded_nil _⟩
  exact .inr (congrArg some (List.mem_singleton.mp hx).symm)

theorem Numbered.grounded_batch {a : Numbered} (hkinds : ∀ kind, known (site.kinds.get kind))
    (hparent : ∀ x ∈ parent, known x)
    (hcontainer : known site.container ∨ site.container = a.type) :
    (a.batch site parent).Grounded known := by
  have hbatch : a.batch site parent = (a.typeHeld parent).batch site ++
      ((a.valueHeld site).batch site ++ a.markBatch site parent) := List.append_assoc _ _ _
  have htype : site.container = a.type → site.container ∈ (a.typeHeld parent).ids := by
    intro heq
    rw [heq]
    exact List.mem_cons_self
  have hstored := hcontainer.imp_right htype
  rw [hbatch]
  refine Batch.grounded_append (Held.grounded_batch hkinds ?_ hcontainer) ?_
  · rintro (_ | _) x hx <;> exact hparent x hx
  refine Batch.grounded_append (Held.grounded_batch (fun kind => .inl (hkinds kind)) ?_ ?_) ?_
  · rintro (_ | _) x hx <;> obtain rfl := Option.some.inj hx
    · exact .inr List.mem_cons_self
    · exact .inl (hkinds a.valueType)
  · exact .inl hstored
  · rw [markBatch]
    cases a.mark with
    | none => exact Batch.grounded_nil _
    | some p =>
        refine Held.grounded_batch (h := a.markHeld parent p.1 p.2)
          (fun kind => .inl (.inl (hkinds kind))) ?_ (.inl (.inl hstored))
        rintro (_ | _) x hx <;> exact .inl (.inl (hparent x hx))

namespace Forest

theorem valued_sublist (site : Site) (parent : Option LinkId) (f : Forest Numbered) :
    (f.batch site parent).valued.Sublist f.ids := by
  rw [f.batch_eq_held, f.ids_eq_held site parent]
  induction f.held site parent with
  | nil => exact List.Sublist.slnil
  | cons h rest ih =>
      have hedge : (h.batch site).valued.Sublist h.ids := List.sublist_cons_self h.id [h.edge]
      rw [List.flatMap_cons, List.flatMap_cons, Batch.valued_append]
      exact hedge.append ih

theorem grounded_batch {f : Forest Numbered} (hkinds : ∀ kind, known (site.kinds.get kind))
    (hparent : ∀ x ∈ parent, known x)
    (hcontainer : known site.container ∨ f.nodes.head? = some site.container) :
    (f.batch site parent).Grounded known := by
  induction f generalizing known parent with
  | nil => exact Batch.grounded_nil known
  | cons a below next ihBelow ihNext =>
      have htype : site.container = a.type → site.container ∈ (a.batch site parent).inserted := by
        intro heq
        rw [a.inserted_batch, heq]
        exact List.mem_cons_self
      have hcontainer : known site.container ∨ site.container = a.type :=
        hcontainer.imp_right fun hhead => (Option.some.inj hhead).symm
      -- Below the node it is known as the parent, after it no longer needed.
      rw [batch, List.append_assoc]
      refine Batch.grounded_append (a.grounded_batch hkinds hparent hcontainer) ?_
      have hstored := hcontainer.imp_right htype
      refine Batch.grounded_append (ihBelow (fun kind => .inl (hkinds kind)) ?_ (.inl hstored)) ?_
      · rintro x ⟨⟩
        rw [a.inserted_batch]
        exact .inr List.mem_cons_self
      · exact ihNext (fun kind => .inl (.inl (hkinds kind)))
          (fun x hx => .inl (.inl (hparent x hx))) (.inl (.inl hstored))

end Forest

/-- Ids that are given once, and are not among those that a batch refers to from the start. -/
structure Site.Clear (site : Site) (parent : Option LinkId) (ids : List LinkId) : Prop where
  nodup : ids.Nodup
  container : site.container ∉ ids
  parent : ∀ x ∈ parent, x ∉ ids
  kinds : ∀ kind, site.kinds.get kind ∉ ids

theorem Site.Clear.root {ids : List LinkId} (h : site.Clear parent ids) : site.Clear none ids where
  nodup := h.nodup
  container := h.container
  parent := by simp
  kinds := h.kinds

theorem Forest.ordered_batch {f : Forest Numbered} {p : Pool} {rest : List LinkId}
    (clear : site.Clear parent p.toList) (drawn : p.next = f.ids ++ rest) :
    (f.batch site parent).checkOrder = .ok () := by
  have hmem : ∀ id, id ∈ p.toList ↔ id ∈ f.ids ∨ id ∈ rest := by
    intro id
    rw [Pool.toList, List.mem_reverse, drawn, List.mem_append]
  have hnodup : f.ids.Nodup := by
    have hnext := clear.nodup
    rw [Pool.toList, List.nodup_reverse, drawn] at hnext
    exact (List.nodup_append.mp hnext).1
  have hgrounded : (f.batch site parent).Grounded fun id => id ∉ p.toList :=
    f.grounded_batch clear.kinds clear.parent (.inl clear.container)
  refine hgrounded.checkOrder ?_ fun id hid => ?_
  · rwa [f.inserted_batch]
  · rw [f.inserted_batch] at hid
    exact not_not_intro ((hmem id).mpr (.inl hid))

theorem Plan.batch_of_compile {s : Schema} {p : Pool} {plan : Plan}
    (h : compile s p site = .ok plan) :
    ∃ rest, (site.build (.root (rootName s)) s).run p = .ok plan.batch rest := by
  rw [compile] at h
  cases hbuild : (site.build (.root (rootName s)) s).run p with
  | error e rest => rw [hbuild] at h; cases h
  | ok batch rest =>
      rw [hbuild] at h
      cases hfinish : rest.finish with
      | error e => simp [hfinish, bind, Except.bind] at h
      | ok u =>
          simp only [hfinish, bind, Except.bind, pure, Except.pure, Except.ok.injEq] at h
          exact ⟨rest, by rw [← h]⟩

/-- What is built from such ids can be applied in its order, whatever the schema and its place, and
also when only a part of the ids is used. -/
theorem Site.built_batch_ordered {place : Place} {p : Pool}
    (clear : site.Clear place.parent p.toList) (s : Schema) :
    (∀ batch rest, (site.build place s).run p = .ok batch rest → batch.checkOrder = .ok ()) ∧
      ∀ plan, Plan.compile s p site = .ok plan → plan.batch.checkOrder = .ok () := by
  have built : ∀ place : Place, site.Clear place.parent p.toList → ∀ batch rest,
      (site.build place s).run p = .ok batch rest → batch.checkOrder = .ok () := by
    intro place clear batch rest h
    have hraised := site.build_raised place s p
    rw [h] at hraised
    cases hraised with
    | enough entities ids => exact Forest.ordered_batch clear ids
  refine ⟨built place clear, fun plan h => ?_⟩
  obtain ⟨rest, hbuild⟩ := Plan.batch_of_compile h
  exact built (.root _) clear.root plan.batch rest hbuild

theorem Site.nested_batch_ordered :
    let site : Site := ⟨500, .core⟩
    let pair : Schema := .tuple none [.other, .list none (.boolean true)]
    let s : Schema := .object none [("name", .string none), ("pair", pair)] (.ofList ["name"])
    ∃ batch rest, (site.build ⟨some 77, "x", true⟩ s).run (.consecutive 100 22) = .ok batch rest ∧
      batch.checkOrder = .ok () := by
  intro site pair s
  have clear : site.Clear (some 77) (Pool.consecutive 100 22).toList := by
    constructor
    · decide
    · decide
    · decide
    · intro kind
      cases kind <;> decide
  obtain ⟨batch, rest, h⟩ : ∃ batch rest,
      (site.build ⟨some 77, "x", true⟩ s).run (.consecutive 100 22) = .ok batch rest := ⟨_, _, rfl⟩
  exact ⟨batch, rest, h, (Site.built_batch_ordered clear s).1 batch rest h⟩

end LinkGraph
