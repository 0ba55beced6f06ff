import LinkGraph.Proofs.Plan.Grounded

namespace LinkGraph

variable {site : Site} {parent : Option LinkId} {r r' : Batch}

/-- A batch that, unless it is empty, starts with an entity on none of the given anchors. -/
def Batch.Departs (site : Site) (anchors : List (Option LinkId)) (r : Batch) : Prop :=
  ∀ op ∈ r.head?, ∃ id anchor, op = .anchored id site.kinds.type anchor ∧ anchor ∉ anchors

theorem Batch.Departs.mono {anchors anchors' : List (Option LinkId)}
    (h : r.Departs site anchors) (hsub : anchors' ⊆ anchors) : r.Departs site anchors' := by
  intro op hop
  obtain ⟨id, anchor, heq, hanchor⟩ := h op hop
  exact ⟨id, anchor, heq, fun hmem => hanchor (hsub hmem)⟩

theorem Batch.not_departs_anchored {anchors : List (Option LinkId)} {id : LinkId}
    (hparent : parent ∈ anchors) :
    ¬Batch.Departs site anchors (.anchored id site.kinds.type parent :: r) := by
  intro h
  obtain ⟨_, _, heq, hanchor⟩ := h _ rfl
  cases heq
  exact hanchor hparent

theorem Batch.not_departs_mark (hkinds : Function.Injective site.kinds.get)
    {anchors : List (Option LinkId)} {id : LinkId} :
    ¬Batch.Departs site anchors (.anchored id site.kinds.required parent :: r) := by
  intro h
  obtain ⟨_, _, heq, -⟩ := h _ rfl
  have hkind : site.kinds.get .required = site.kinds.get .type := by
    simp only [Operation.anchored, Operation.insertNode.injEq, Node.mk.injEq] at heq
    exact heq.2.1
  cases hkinds hkind

theorem Numbered.markBatch_append_inj (hkinds : Function.Injective site.kinds.get)
    {a b : Numbered} (hr : r.Departs site []) (hr' : r'.Departs site [])
    (h : a.markBatch site parent ++ r = b.markBatch site parent ++ r') :
    a.mark = b.mark ∧ r = r' := by
  rw [markBatch, markBatch] at h
  cases hmark : a.mark with
  | none =>
      cases hmark' : b.mark with
      | none =>
          rw [hmark, hmark'] at h
          exact ⟨rfl, h⟩
      | some p =>
          rw [hmark, hmark', Option.elim_none, List.nil_append] at h
          exact absurd (h ▸ hr) (Batch.not_departs_mark hkinds)
  | some p =>
      cases hmark' : b.mark with
      | none =>
          rw [hmark, hmark', Option.elim_none, List.nil_append] at h
          exact absurd (h ▸ hr') (Batch.not_departs_mark hkinds)
      | some p' =>
          rw [hmark, hmark'] at h
          simp only [Option.elim_some, Site.contained, Operation.anchored, Operation.edge,
            List.cons_append, List.nil_append, List.cons.injEq, Operation.insertNode.injEq,
            Operation.insertValue.injEq, Node.mk.injEq, Option.some.injEq] at h
          obtain ⟨⟨hnode, -⟩, ⟨hedge, -⟩, -, hrest⟩ := h
          exact ⟨congrArg some (Prod.ext hnode hedge), hrest⟩

theorem Numbered.batch_append_inj (hkinds : Function.Injective site.kinds.get) {a b : Numbered}
    (hr : r.Departs site []) (hr' : r'.Departs site [])
    (h : a.batch site parent ++ r = b.batch site parent ++ r') : a = b ∧ r = r' := by
  simp only [batch, Site.contained, Operation.edge, List.cons_append, List.nil_append,
    List.cons.injEq, Operation.insertNode.injEq, Operation.insertValue.injEq, Node.mk.injEq,
    Option.some.injEq, true_and, hkinds.eq_iff] at h
  obtain ⟨-, ⟨htypeEdge, htype⟩, ⟨-, hname⟩, ⟨hvalue, -, hkind⟩, ⟨hvalueEdge, -⟩, -, hmarks⟩ := h
  obtain ⟨hmark, hrest⟩ := markBatch_append_inj hkinds hr hr' hmarks
  refine ⟨?_, hrest⟩
  cases a
  cases b
  simp only [mk.injEq]
  exact ⟨hname, hkind, htype, htypeEdge, hvalue, hvalueEdge, hmark⟩

namespace Forest

def anchors (parent : Option LinkId) (f : Forest Numbered) : List (Option LinkId) :=
  parent :: f.ids.map some

theorem anchors_below (a : Numbered) (below next : Forest Numbered) :
    (below.anchors (some a.type)).Sublist ((cons a below next).ids.map some) := by
  have hids : (a.type :: below.ids).Sublist (a.ids ++ below.ids) :=
    (List.singleton_sublist.mpr List.mem_cons_self).append (List.Sublist.refl below.ids)
  exact (hids.trans (List.sublist_append_left _ next.ids)).map some

theorem anchors_next (parent : Option LinkId) (a : Numbered) (below next : Forest Numbered) :
    (next.anchors parent).Sublist ((cons a below next).anchors parent) :=
  ((List.sublist_append_right _ next.ids).map some).cons_cons parent

theorem departs_append {anchors : List (Option LinkId)} (f : Forest Numbered)
    (hr : r.Departs site anchors) (hparent : parent ∉ anchors) :
    Batch.Departs site anchors (f.batch site parent ++ r) := by
  cases f with
  | nil => exact hr
  | cons a _ _ =>
      rintro _ ⟨⟩
      exact ⟨a.type, parent, rfl, hparent⟩

theorem departs_below {a : Numbered} {below next : Forest Numbered}
    (hnodup : ((cons a below next).anchors parent).Nodup)
    (hr : r.Departs site ((cons a below next).anchors parent)) :
    Batch.Departs site (below.anchors (some a.type)) (next.batch site parent ++ r) := by
  have hsub := (anchors_below a below next).subset
  have hbelow := hr.mono fun _ hmem => List.mem_cons_of_mem parent (hsub hmem)
  refine next.departs_append hbelow fun hmem => ?_
  exact (List.nodup_cons.mp hnodup).1 (hsub hmem)

/-- A batch tells its forest, also when other batches follow it: the next entity shows by its
anchor that nothing more comes below the nodes before it. -/
theorem batch_append_inj (hkinds : Function.Injective site.kinds.get) {f g : Forest Numbered}
    (hf : (f.anchors parent).Nodup) (hg : (g.anchors parent).Nodup)
    (hr : r.Departs site (f.anchors parent)) (hr' : r'.Departs site (g.anchors parent))
    (h : f.batch site parent ++ r = g.batch site parent ++ r') : f = g ∧ r = r' := by
  induction f generalizing g parent r r' with
  | nil =>
      cases g with
      | nil => exact ⟨rfl, h⟩
      | cons b _ _ =>
          rw [batch, List.nil_append] at h
          exact absurd (h ▸ hr) (Batch.not_departs_anchored List.mem_cons_self)
  | cons a below next ihBelow ihNext =>
      cases g with
      | nil =>
          rw [batch.eq_1, List.nil_append] at h
          exact absurd (h ▸ hr') (Batch.not_departs_anchored List.mem_cons_self)
      | cons b below' next' =>
          have hrest := departs_below hf hr
          have hrest' := departs_below hg hr'
          simp only [batch, List.append_assoc] at h
          obtain ⟨rfl, htrees⟩ := Numbered.batch_append_inj hkinds
            (below.departs_append (hrest.mono (List.nil_subset _)) List.not_mem_nil)
            (below'.departs_append (hrest'.mono (List.nil_subset _)) List.not_mem_nil) h
          have hbelow := anchors_below a below next
          have hbelow' := anchors_below a below' next'
          obtain ⟨rfl, hnext⟩ := ihBelow ((List.nodup_cons.mp hf).2.sublist hbelow)
            ((List.nodup_cons.mp hg).2.sublist hbelow') hrest hrest' htrees
          have hsub := anchors_next parent a below next
          have hsub' := anchors_next parent a below next'
          obtain ⟨rfl, rfl⟩ := ihNext (hf.sublist hsub) (hg.sublist hsub') (hr.mono hsub.subset)
            (hr'.mono hsub'.subset) hnext
          exact ⟨rfl, rfl⟩

end Forest

namespace Plan

/-- Two schemas compile to one batch exactly if they have one skeleton. -/
theorem batch_eq_iff_skeleton_eq {s s' : Schema} {ids : List LinkId} {plan plan' : Plan}
    (hkinds : Function.Injective site.kinds.get) (hids : ids.Nodup)
    (h : compile s (.ofList ids) site = .ok plan)
    (h' : compile s' (.ofList ids) site = .ok plan') :
    plan.batch = plan'.batch ↔ s.skeleton = s'.skeleton := by
  constructor
  · intro hbatch
    have hcompiled := compile_compiled s ids site
    have hcompiled' := compile_compiled s' ids site
    rw [h] at hcompiled
    rw [h'] at hcompiled'
    cases hcompiled with
    | @done f entities drawn =>
        cases hcompiled' with
        | @done g entities' drawn' =>
            have hanchors : ∀ {f : Forest Numbered}, f.ids = ids.reverse →
                (f.anchors none).Nodup := by
              intro f drawn
              rw [Forest.anchors, drawn]
              refine List.nodup_cons.mpr ⟨by simp, ?_⟩
              exact (List.nodup_reverse.mpr hids).map fun _ _ => Option.some.inj
            have hnil : ∀ anchors, Batch.Departs site anchors [] := fun _ _ hop => nomatch hop
            obtain ⟨rfl, -⟩ := Forest.batch_append_inj hkinds (hanchors drawn) (hanchors drawn')
              (hnil _) (hnil _) (congrArg (· ++ []) hbatch)
            rw [← entities, ← entities']
  · intro hskeleton
    obtain ⟨rest, hbuild⟩ := batch_of_compile h
    obtain ⟨rest', hbuild'⟩ := batch_of_compile h'
    rw [site.build_eq_raise] at hbuild hbuild'
    have hraise : (site.raise none s.skeleton).run (.ofList ids) = .ok plan'.batch rest' := by
      rw [hskeleton]
      exact hbuild'
    exact (EStateM.Result.ok.inj (hbuild.symm.trans hraise)).1

theorem item_named_property :
    let s : Schema := .object none [("Schema[0]", .list none (.boolean true))] ∅
    let s' : Schema := .tuple none [.object none [("x", .other)] (.ofList ["x", "y"]), .other]
    ∃ plan plan', compile s (.ofList (List.range' 8 8)) ⟨500, .core⟩ = .ok plan ∧
      compile s' (.ofList (List.range' 8 8)) ⟨500, .core⟩ = .ok plan' ∧
      plan.batch = plan'.batch := by
  intro s s'
  obtain ⟨plan, h⟩ : ∃ plan, compile s (.ofList (List.range' 8 8)) ⟨500, .core⟩ = .ok plan :=
    ⟨_, rfl⟩
  obtain ⟨plan', h'⟩ : ∃ plan, compile s' (.ofList (List.range' 8 8)) ⟨500, .core⟩ = .ok plan :=
    ⟨_, rfl⟩
  have hskeleton : s.skeleton = s'.skeleton := rfl
  exact ⟨plan, plan', h, h', (batch_eq_iff_skeleton_eq KindTable.get_core_injective
    List.nodup_range' h h').mpr hskeleton⟩

end Plan

end LinkGraph
