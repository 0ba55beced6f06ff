import LinkGraph.Proofs.Plan.Contents
import LinkGraph.Proofs.Schema.Siblings
import LinkGraph.Proofs.Store.Reading
import LinkGraph.Proofs.Store.Sound

namespace LinkGraph

namespace Forest

theorem consistent_entry {f : Forest Numbered} {parent : Option LinkId} {e : Entry}
    (h : f.entities.Consistent) (he : e ∈ f.entries parent) :
    ∃ required : String → Bool, ∀ b ∈ e.below.roots, b.mark.isSome = required b.name := by
  induction f generalizing parent with
  | nil => cases he
  | cons a below next ihBelow ihNext =>
      obtain ⟨⟨required, hroots⟩, hbelow, hnext⟩ := h
      rcases List.mem_cons.mp he with rfl | he
      · refine ⟨required, fun b hb => ?_⟩
        refine hroots b.entity ?_
        rw [roots_map]
        exact List.mem_map_of_mem hb
      · rcases List.mem_append.mp he with he | he
        · exact ihBelow hbelow he
        · exact ihNext hnext he

end Forest

namespace Store

/-- All that a store has to do with the ids of a forest is what the batch of the forest inserts. -/
structure Planted (site : Site) (f : Forest Numbered) (s : Store) : Prop where
  closed : Closed s
  kinds : Function.Injective site.kinds.get
  descending : f.ids.Pairwise (· > ·)
  links : ∀ {id : LinkId} {node : Node} {x : LinkId}, x ∈ f.ids → x ∈ node.references →
    (s.node? id = some node ↔ .insertNode id node ∈ f.batch site none)
  strings : ∀ {id : LinkId} {text : String}, id ∈ f.ids →
    (s.strings[id]? = some text ↔ .insertValue id text ∈ f.batch site none)

namespace Planted

variable {s : Store} {site : Site} {f : Forest Numbered} {e : Entry}

theorem nodup (h : Planted site f s) : f.ids.Nodup := h.descending.imp fun hgt => Nat.ne_of_gt hgt

theorem mem_ids_of_held {a : Held} (ha : a ∈ f.held site none) {x : LinkId} (hx : x ∈ a.ids) :
    x ∈ f.ids := by
  rw [f.ids_eq_held site none]
  exact List.mem_flatMap_of_mem ha hx

theorem type_mem_ids (he : e ∈ f.entries none) : e.label.type ∈ f.ids := by
  rw [Forest.ids_eq_entries none]
  exact List.mem_flatMap_of_mem he List.mem_cons_self

theorem edge_to (h : Planted site f s) {a : Held} (ha : a ∈ f.held site none) (id : LinkId) :
    s.node? id = some ⟨site.kinds.contain, some site.container, some a.id⟩ ↔ id = a.edge := by
  have hid : a.id ∈ f.ids := mem_ids_of_held ha List.mem_cons_self
  refine (h.links hid (by simp [Node.references])).trans ((Forest.edge_mem_batch h.kinds).trans ?_)
  constructor
  · rintro ⟨b, hb, rfl, -, hdest⟩
    have hsame : a.id = b.id := Option.some.inj hdest
    rw [Forest.held_unique h.nodup ha hb List.mem_cons_self (hsame ▸ List.mem_cons_self)]
  · rintro rfl
    exact ⟨a, ha, rfl, rfl, rfl⟩

theorem text_on (h : Planted site f s) {a : Held} (ha : a ∈ f.held site none) (text : String) :
    s.strings[a.edge]? = some text ↔ text = a.text := by
  have hedge : ∀ b ∈ f.held site none, b.edge ∈ b.ids :=
    fun _ _ => List.mem_cons_of_mem _ List.mem_cons_self
  refine (h.strings (mem_ids_of_held ha (hedge a ha))).trans (Forest.insertValue_mem_batch.trans ?_)
  constructor
  · rintro ⟨b, hb, hsame, rfl⟩
    rw [Forest.held_unique h.nodup ha hb (hedge a ha) (hsame ▸ hedge b hb)]
  · rintro rfl
    exact ⟨a, ha, rfl, rfl⟩

theorem label (h : Planted site f s) (he : e ∈ f.entries none) :
    s.label? site e.label.type = some e.label.name := by
  have ha : e.label.typeHeld e.parent ∈ f.held site none :=
    Forest.mem_held.mpr ⟨e, he, Numbered.mem_held.mpr (.inl rfl)⟩
  exact label?_eq_some h.closed (h.edge_to ha) ((h.text_on ha _).mpr rfl)

theorem valueType (h : Planted site f s) (he : e ∈ f.entries none) :
    s.valueType? site e.label.type = some (site.kinds.get e.label.valueType) := by
  have hlinks : ∀ (id : LinkId) (dest : Option LinkId),
      s.node? id = some ⟨site.kinds.value, some e.label.type, dest⟩ ↔
        id = e.label.value ∧ dest = some (site.kinds.get e.label.valueType) := by
    intro id dest
    refine (h.links (type_mem_ids he) (by simp [Node.references])).trans
      ((Forest.value_mem_batch h.kinds).trans ?_)
    constructor
    · rintro ⟨d, hd, rfl, hsource, rfl⟩
      obtain rfl := Forest.entry_unique h.nodup hd he (Option.some.inj hsource)
      exact ⟨rfl, rfl⟩
    · rintro ⟨rfl, rfl⟩
      exact ⟨e, he, rfl, rfl, rfl⟩
  exact valueType?_eq_some h.closed hlinks

theorem children (h : Planted site f s) (he : e ∈ f.entries none) :
    s.children site e.label.type = e.below.nodes := by
  have hsub : e.below.nodes.Sublist f.ids := e.below.nodes_sublist.trans (Forest.below_sublist he)
  refine children_eq h.closed (h.descending.sublist hsub) fun id => ?_
  refine (h.links (type_mem_ids he) (by simp [Node.references])).trans
    ((Forest.type_mem_batch h.kinds).trans ?_)
  rw [Forest.nodes, List.mem_map]
  constructor
  · rintro ⟨d, hd, rfl, hparent, -⟩
    exact ⟨d.label, (Forest.mem_below_roots h.nodup he _).mpr ⟨d, hd, hparent, rfl⟩, rfl⟩
  · rintro ⟨b, hb, rfl⟩
    obtain ⟨d, hd, hparent, rfl⟩ := (Forest.mem_below_roots h.nodup he b).mp hb
    exact ⟨d, hd, rfl, hparent, hparent⟩

theorem isMarked_iff (h : Planted site f s) (he : e ∈ f.entries none) (name : String) :
    s.isMarked site (some e.label.type) name = true ↔
      ∃ b ∈ e.below.roots, b.mark.isSome = true ∧ b.name = name := by
  rw [Store.isMarked_iff h.closed]
  constructor
  · rintro ⟨mark, edge, hmark, hedge, htext⟩
    rw [h.links (type_mem_ids he) (by simp [Node.references])] at hmark
    obtain ⟨d, hd, edge', hd', hparent, -⟩ := (Forest.mark_mem_batch h.kinds).mp hmark
    have hheld : d.label.markHeld d.parent mark edge' ∈ f.held site none :=
      Forest.mem_held.mpr ⟨d, hd, Numbered.mem_held.mpr (.inr (.inr ⟨mark, edge', hd', rfl⟩))⟩
    obtain rfl := (h.edge_to hheld edge).mp hedge
    have hname := (h.text_on hheld _).mp htext
    have hroot := (Forest.mem_below_roots h.nodup he d.label).mpr ⟨d, hd, hparent, rfl⟩
    exact ⟨d.label, hroot, by rw [hd']; rfl, ((String.append_left_inj _).mp hname).symm⟩
  · rintro ⟨b, hb, hmark, rfl⟩
    obtain ⟨d, hd, hparent, rfl⟩ := (Forest.mem_below_roots h.nodup he b).mp hb
    obtain ⟨⟨mark, edge⟩, hd'⟩ := Option.isSome_iff_exists.mp hmark
    have hheld : d.label.markHeld d.parent mark edge ∈ f.held site none :=
      Forest.mem_held.mpr ⟨d, hd, Numbered.mem_held.mpr (.inr (.inr ⟨mark, edge, hd', rfl⟩))⟩
    refine ⟨mark, edge, ?_, (h.edge_to hheld edge).mpr rfl, (h.text_on hheld _).mpr rfl⟩
    refine (h.links (type_mem_ids he) (by simp [Node.references])).mpr ?_
    exact (Forest.mark_mem_batch h.kinds).mpr ⟨d, hd, edge, hd', hparent, hparent⟩

theorem isMarked_eq (h : Planted site f s) (hf : f.entities.Consistent) (he : e ∈ f.entries none)
    {b : Numbered} (hb : b ∈ e.below.roots) :
    s.isMarked site (some e.label.type) b.name = b.mark.isSome := by
  obtain ⟨required, hrequired⟩ := Forest.consistent_entry hf he
  rw [Bool.eq_iff_iff, h.isMarked_iff he]
  constructor
  · rintro ⟨c, hc, hmark, hname⟩
    rw [hrequired b hb, ← hname, ← hrequired c hc, hmark]
  · intro hmark
    exact ⟨b, hb, hmark, rfl⟩

theorem readsAs (h : Planted site f s) (hf : f.entities.Consistent) {parent : Option LinkId}
    {g : Forest Numbered} (hg : g.entries parent ⊆ f.entries none)
    (hmarks : ∀ b ∈ g.roots, s.isMarked site parent b.name = b.mark.isSome) :
    s.ReadsAs site parent g.nodes g.entities := by
  -- Marks are judged at the parent, where all the siblings are known, so they are carried down.
  induction g generalizing parent with
  | nil => exact .nil parent
  | cons a below next ihBelow ihNext =>
      have he : (⟨parent, a, below⟩ : Entry) ∈ f.entries none := hg List.mem_cons_self
      have hinner : s.ReadsAs site (some a.type) below.nodes below.entities := by
        refine ihBelow (fun d hd => ?_) fun b hb => h.isMarked_eq hf he hb
        exact hg (List.mem_cons_of_mem _ (List.mem_append_left _ hd))
      have houter : s.ReadsAs site parent next.nodes next.entities := by
        refine ihNext (fun d hd => ?_) fun b hb => hmarks b (List.mem_cons_of_mem _ hb)
        exact hg (List.mem_cons_of_mem _ (List.mem_append_right _ hd))
      rw [← h.children he] at hinner
      have hentity : a.entity = ⟨a.name, a.valueType, s.isMarked site parent a.name⟩ := by
        rw [hmarks a List.mem_cons_self, Numbered.entity]
      change s.ReadsAs site parent (a.type :: next.nodes)
        (.cons a.entity below.entities next.entities)
      rw [hentity]
      exact .cons (h.label he) (h.valueType he) hinner houter

end Planted

end Store

end LinkGraph
