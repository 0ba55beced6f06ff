import LinkGraph.Proofs.Plan.Entries

namespace LinkGraph.Forest

variable {site : Site} {parent : Option LinkId} {f : Forest Numbered}

theorem mem_held {h : Held} :
    h ∈ f.held site parent ↔ ∃ e ∈ f.entries parent, h ∈ e.held site := List.mem_flatMap

theorem kind_of_held {h : Held} (hmem : h ∈ f.held site parent) :
    h.kind = .type ∨ h.kind = .value ∨ h.kind = .required := by
  obtain ⟨e, -, he⟩ := mem_held.mp hmem
  rcases Numbered.mem_held.mp he with rfl | rfl | ⟨mark, edge, -, rfl⟩
  · exact .inl rfl
  · exact .inr (.inl rfl)
  · exact .inr (.inr rfl)

theorem insertNode_mem_batch {id : LinkId} {node : Node} :
    .insertNode id node ∈ f.batch site parent ↔
      ∃ h ∈ f.held site parent,
        id = h.id ∧ node = h.node site ∨ id = h.edge ∧ node = h.edgeNode site := by
  simp only [f.batch_eq_held, List.mem_flatMap, Held.insertNode_mem_batch]

theorem insertValue_mem_batch {id : LinkId} {text : String} :
    .insertValue id text ∈ f.batch site parent ↔
      ∃ h ∈ f.held site parent, id = h.edge ∧ text = h.text := by
  simp only [f.batch_eq_held, List.mem_flatMap, Held.insertValue_mem_batch]

theorem held_unique {h h' : Held} {x : LinkId} (hids : f.ids.Nodup)
    (hmem : h ∈ f.held site parent) (hmem' : h' ∈ f.held site parent) (hx : x ∈ h.ids)
    (hx' : x ∈ h'.ids) : h = h' := by
  rw [f.ids_eq_held site parent] at hids
  exact eq_of_mem_of_nodup_flatMap hids hmem hmem' hx hx'

section Kinds

variable (hkinds : Function.Injective site.kinds.get)
include hkinds

theorem edge_mem_batch {id : LinkId} {source dest : Option LinkId} :
    .insertNode id ⟨site.kinds.get .contain, source, dest⟩ ∈ f.batch site parent ↔
      ∃ h ∈ f.held site parent, h.edge = id ∧ source = some site.container ∧ dest = some h.id := by
  rw [insertNode_mem_batch]
  constructor
  · rintro ⟨h, hmem, ⟨rfl, hnode⟩ | ⟨rfl, hnode⟩⟩
    · have hkind : Kind.contain = h.kind := hkinds (congrArg Node.kind hnode)
      rcases kind_of_held hmem with hk | hk | hk <;> cases hkind.trans hk
    · exact ⟨h, hmem, rfl, congrArg Node.source hnode, congrArg Node.dest hnode⟩
  · rintro ⟨h, hmem, rfl, rfl, rfl⟩
    exact ⟨h, hmem, .inr ⟨rfl, rfl⟩⟩

theorem node_mem_batch {kind : Kind} (hkind : kind ≠ .contain) {id : LinkId}
    {source dest : Option LinkId} :
    .insertNode id ⟨site.kinds.get kind, source, dest⟩ ∈ f.batch site parent ↔
      ∃ e ∈ f.entries parent, ∃ h ∈ e.held site,
        h.kind = kind ∧ h.id = id ∧ h.source = source ∧ h.dest = dest := by
  rw [insertNode_mem_batch]
  constructor
  · rintro ⟨h, hmem, ⟨rfl, hnode⟩ | ⟨rfl, hnode⟩⟩
    · obtain ⟨e, he, hheld⟩ := mem_held.mp hmem
      have hsame : kind = h.kind := hkinds (congrArg Node.kind hnode)
      exact ⟨e, he, h, hheld, hsame.symm, rfl, (congrArg Node.source hnode).symm,
        (congrArg Node.dest hnode).symm⟩
    · have hsame : kind = Kind.contain := hkinds (congrArg Node.kind hnode)
      exact absurd hsame hkind
  · rintro ⟨e, he, h, hheld, rfl, rfl, rfl, rfl⟩
    exact ⟨h, mem_held.mpr ⟨e, he, hheld⟩, .inl ⟨rfl, rfl⟩⟩

theorem type_mem_batch {id : LinkId} {source dest : Option LinkId} :
    .insertNode id ⟨site.kinds.get .type, source, dest⟩ ∈ f.batch site parent ↔
      ∃ e ∈ f.entries parent, e.label.type = id ∧ e.parent = source ∧ e.parent = dest := by
  rw [node_mem_batch hkinds (by decide)]
  constructor
  · rintro ⟨e, he, h, hheld, hkind, rfl, rfl, rfl⟩
    rcases Numbered.mem_held.mp hheld with rfl | rfl | ⟨mark, edge, -, rfl⟩
    · exact ⟨e, he, rfl, rfl, rfl⟩
    · cases hkind
    · cases hkind
  · rintro ⟨e, he, rfl, rfl, hdest⟩
    exact ⟨e, he, _, Numbered.mem_held.mpr (.inl rfl), rfl, rfl, rfl, hdest⟩

theorem value_mem_batch {id : LinkId} {source dest : Option LinkId} :
    .insertNode id ⟨site.kinds.get .value, source, dest⟩ ∈ f.batch site parent ↔
      ∃ e ∈ f.entries parent, e.label.value = id ∧ some e.label.type = source ∧
        some (site.kinds.get e.label.valueType) = dest := by
  rw [node_mem_batch hkinds (by decide)]
  constructor
  · rintro ⟨e, he, h, hheld, hkind, rfl, rfl, rfl⟩
    rcases Numbered.mem_held.mp hheld with rfl | rfl | ⟨mark, edge, -, rfl⟩
    · cases hkind
    · exact ⟨e, he, rfl, rfl, rfl⟩
    · cases hkind
  · rintro ⟨e, he, rfl, rfl, rfl⟩
    exact ⟨e, he, _, Numbered.mem_held.mpr (.inr (.inl rfl)), rfl, rfl, rfl, rfl⟩

theorem mark_mem_batch {id : LinkId} {source dest : Option LinkId} :
    .insertNode id ⟨site.kinds.get .required, source, dest⟩ ∈ f.batch site parent ↔
      ∃ e ∈ f.entries parent, ∃ edge, e.label.mark = some (id, edge) ∧ e.parent = source ∧
        e.parent = dest := by
  rw [node_mem_batch hkinds (by decide)]
  constructor
  · rintro ⟨e, he, h, hheld, hkind, rfl, rfl, rfl⟩
    rcases Numbered.mem_held.mp hheld with rfl | rfl | ⟨mark, edge, hmark, rfl⟩
    · cases hkind
    · cases hkind
    · exact ⟨e, he, edge, hmark, rfl, rfl⟩
  · rintro ⟨e, he, edge, hmark, rfl, hdest⟩
    have hheld : e.label.markHeld e.parent id edge ∈ e.held site :=
      Numbered.mem_held.mpr (.inr (.inr ⟨id, edge, hmark, rfl⟩))
    exact ⟨e, he, _, hheld, rfl, rfl, rfl, hdest⟩

end Kinds

end LinkGraph.Forest
