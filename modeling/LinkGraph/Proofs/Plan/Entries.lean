import LinkGraph.Proofs.Plan.Outcome
import Mathlib.Data.List.Nodup
import Mathlib.Data.List.Pairwise

namespace LinkGraph

/-- A node that hangs on the container by an edge with a text. -/
structure Held where
  id : LinkId
  kind : Kind
  source : Option LinkId
  dest : Option LinkId
  edge : LinkId
  text : String
  deriving DecidableEq, Repr

namespace Held

def ids (h : Held) : List LinkId := [h.id, h.edge]

def node (site : Site) (h : Held) : Node := ⟨site.kinds.get h.kind, h.source, h.dest⟩

def edgeNode (site : Site) (h : Held) : Node :=
  ⟨site.kinds.get .contain, some site.container, some h.id⟩

def batch (site : Site) (h : Held) : Batch :=
  site.contained (.insertNode h.id (h.node site)) h.id h.edge h.text

theorem insertNode_mem_batch {site : Site} {h : Held} {id : LinkId} {node : Node} :
    .insertNode id node ∈ h.batch site ↔
      id = h.id ∧ node = h.node site ∨ id = h.edge ∧ node = h.edgeNode site := by
  simp [batch, edgeNode, Site.contained, Operation.edge, KindTable.get]

theorem insertValue_mem_batch {site : Site} {h : Held} {id : LinkId} {text : String} :
    .insertValue id text ∈ h.batch site ↔ id = h.edge ∧ text = h.text := by
  simp [batch, Site.contained, Operation.edge]

end Held

namespace Numbered

def typeHeld (parent : Option LinkId) (a : Numbered) : Held :=
  ⟨a.type, .type, parent, parent, a.typeEdge, a.name⟩

def valueHeld (site : Site) (a : Numbered) : Held :=
  ⟨a.value, .value, some a.type, some (site.kinds.get a.valueType), a.valueEdge, a.name ++ "Value"⟩

def markHeld (parent : Option LinkId) (a : Numbered) (mark edge : LinkId) : Held :=
  ⟨mark, .required, parent, parent, edge, a.name ++ "Required"⟩

def held (site : Site) (parent : Option LinkId) (a : Numbered) : List Held :=
  a.typeHeld parent :: a.valueHeld site ::
    a.mark.elim [] fun (mark, edge) => [a.markHeld parent mark edge]

theorem mem_held {site : Site} {parent : Option LinkId} {a : Numbered} {h : Held} :
    h ∈ a.held site parent ↔
      h = a.typeHeld parent ∨ h = a.valueHeld site ∨
        ∃ mark edge, a.mark = some (mark, edge) ∧ h = a.markHeld parent mark edge := by
  rw [held, List.mem_cons, List.mem_cons]
  cases hmark : a.mark with
  | none => simp
  | some p => simp [Prod.ext_iff]

theorem batch_eq_held (site : Site) (parent : Option LinkId) (a : Numbered) :
    a.batch site parent = (a.held site parent).flatMap (Held.batch site) := by
  obtain ⟨_, _, _, _, _, _, mark⟩ := a
  cases mark <;> rfl

theorem ids_eq_held (site : Site) (parent : Option LinkId) (a : Numbered) :
    a.ids = (a.held site parent).flatMap Held.ids := by
  obtain ⟨_, _, _, _, _, _, mark⟩ := a
  cases mark <;> rfl

end Numbered

/-- A tree of a numbered forest: the node above it, its label, and what is below it. -/
structure Entry where
  parent : Option LinkId
  label : Numbered
  below : Forest Numbered

def Entry.held (site : Site) (e : Entry) : List Held := e.label.held site e.parent

namespace Forest

def entries (parent : Option LinkId) : Forest Numbered → List Entry
  | nil => []
  | cons a below next => ⟨parent, a, below⟩ :: (below.entries (some a.type) ++ next.entries parent)

def held (site : Site) (parent : Option LinkId) (f : Forest Numbered) : List Held :=
  (f.entries parent).flatMap (Entry.held site)

theorem held_cons (site : Site) (parent : Option LinkId) (a : Numbered)
    (below next : Forest Numbered) :
    (cons a below next).held site parent =
      a.held site parent ++ below.held site (some a.type) ++ next.held site parent := by
  rw [held, entries, List.flatMap_cons, List.flatMap_append, List.append_assoc]
  rfl

theorem batch_eq_held (site : Site) (parent : Option LinkId) (f : Forest Numbered) :
    f.batch site parent = (f.held site parent).flatMap (Held.batch site) := by
  induction f generalizing parent with
  | nil => rfl
  | cons a below next ihBelow ihNext =>
      rw [batch, held_cons, List.flatMap_append, List.flatMap_append, ihBelow, ihNext,
        a.batch_eq_held]

theorem ids_eq_held (site : Site) (parent : Option LinkId) (f : Forest Numbered) :
    f.ids = (f.held site parent).flatMap Held.ids := by
  induction f generalizing parent with
  | nil => rfl
  | cons a below next ihBelow ihNext =>
      rw [ids_cons, held_cons, List.flatMap_append, List.flatMap_append, ihBelow (some a.type),
        ihNext parent, a.ids_eq_held site parent]

theorem ids_eq_entries (parent : Option LinkId) (f : Forest Numbered) :
    f.ids = (f.entries parent).flatMap fun e => e.label.ids := by
  induction f generalizing parent with
  | nil => rfl
  | cons a below next ihBelow ihNext =>
      rw [ids_cons, entries, List.flatMap_cons, List.flatMap_append, ihBelow (some a.type),
        ihNext parent, List.append_assoc]

variable {f : Forest Numbered} {parent : Option LinkId} {d e : Entry}

theorem exists_entry_of_root {b : Numbered} (h : b ∈ f.roots) (parent : Option LinkId) :
    ∃ e ∈ f.entries parent, e.parent = parent ∧ e.label = b := by
  induction f with
  | nil => cases h
  | cons a below next _ ih =>
      rcases List.mem_cons.mp h with rfl | h
      · exact ⟨_, List.mem_cons_self, rfl, rfl⟩
      · obtain ⟨e, he, heq⟩ := ih h
        exact ⟨e, List.mem_cons_of_mem _ (List.mem_append_right _ he), heq⟩

theorem entries_below (h : d ∈ f.entries parent) :
    d.below.entries (some d.label.type) ⊆ f.entries parent := by
  induction f generalizing parent with
  | nil => cases h
  | cons a below next ihBelow ihNext =>
      intro e he
      refine List.mem_cons_of_mem _ (List.mem_append.mpr ?_)
      rcases List.mem_cons.mp h with rfl | h
      · exact .inl he
      · rcases List.mem_append.mp h with h | h
        · exact .inl (ihBelow h he)
        · exact .inr (ihNext h he)

theorem parent_of_entry (h : e ∈ f.entries parent) :
    e.parent = parent ∧ e.label ∈ f.roots ∨
      ∃ d ∈ f.entries parent, e.parent = some d.label.type ∧ e.label ∈ d.below.roots := by
  induction f generalizing parent with
  | nil => cases h
  | cons a below next ihBelow ihNext =>
      rcases List.mem_cons.mp h with rfl | h
      · exact .inl ⟨rfl, List.mem_cons_self⟩
      · rcases List.mem_append.mp h with h | h
        · rcases ihBelow h with hroot | ⟨d, hd, hparent⟩
          · exact .inr ⟨⟨parent, a, below⟩, List.mem_cons_self, hroot⟩
          · exact .inr ⟨d, List.mem_cons_of_mem _ (List.mem_append_left _ hd), hparent⟩
        · rcases ihNext h with ⟨hparent, hroot⟩ | ⟨d, hd, hparent⟩
          · exact .inl ⟨hparent, List.mem_cons_of_mem _ hroot⟩
          · exact .inr ⟨d, List.mem_cons_of_mem _ (List.mem_append_right _ hd), hparent⟩

theorem nodes_sublist (f : Forest Numbered) : f.nodes.Sublist f.ids := by
  induction f with
  | nil => exact List.Sublist.slnil
  | cons a below next _ ih =>
      rw [ids_cons, nodes, roots, List.map_cons, ← List.singleton_append]
      refine List.Sublist.append ?_ ih
      exact (List.singleton_sublist.mpr List.mem_cons_self).trans (List.sublist_append_left _ _)

theorem below_sublist (h : d ∈ f.entries parent) : d.below.ids.Sublist f.ids := by
  induction f generalizing parent with
  | nil => cases h
  | cons a below next ihBelow ihNext =>
      rw [ids_cons]
      rcases List.mem_cons.mp h with rfl | h
      · exact (List.sublist_append_right _ _).trans (List.sublist_append_left _ _)
      · rcases List.mem_append.mp h with h | h
        · exact (ihBelow h).trans
            ((List.sublist_append_right _ _).trans (List.sublist_append_left _ _))
        · exact (ihNext h).trans (List.sublist_append_right _ _)

theorem eq_of_mem_of_nodup_flatMap {ι : Type} {g : ι → List LinkId} {l : List ι} {i j : ι}
    {x : LinkId} (h : (l.flatMap g).Nodup) (hi : i ∈ l) (hj : j ∈ l) (hx : x ∈ g i)
    (hx' : x ∈ g j) : i = j := by
  have symm : Std.Symm (Function.onFun List.Disjoint g) := ⟨fun _ _ hd _ hy hy' => hd hy' hy⟩
  by_contra hne
  exact (List.nodup_flatMap.mp h).2.forall hi hj hne hx hx'

theorem entry_unique (h : f.ids.Nodup) (hd : d ∈ f.entries parent) (he : e ∈ f.entries parent)
    (htype : d.label.type = e.label.type) : d = e := by
  rw [ids_eq_entries parent] at h
  exact eq_of_mem_of_nodup_flatMap h hd he (x := d.label.type) List.mem_cons_self
    (htype ▸ List.mem_cons_self)

theorem mem_below_roots (h : f.ids.Nodup) (hd : d ∈ f.entries none) (b : Numbered) :
    b ∈ d.below.roots ↔
      ∃ e ∈ f.entries none, e.parent = some d.label.type ∧ e.label = b := by
  constructor
  · intro hb
    obtain ⟨e, he, heq⟩ := exists_entry_of_root hb (some d.label.type)
    exact ⟨e, entries_below hd he, heq⟩
  · rintro ⟨e, he, hparent, rfl⟩
    rcases parent_of_entry he with ⟨hnone, -⟩ | ⟨d', hd', hparent', hroot⟩
    · cases hnone.symm.trans hparent
    · have htype : d'.label.type = d.label.type := Option.some.inj (hparent'.symm.trans hparent)
      exact entry_unique h hd' hd htype ▸ hroot

end Forest

end LinkGraph
