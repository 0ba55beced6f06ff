import LinkGraph.Proofs.Plan.Contents
import LinkGraph.Proofs.Plan.Supply

namespace LinkGraph

def Operation.edgeTo? (kind id : LinkId) : Operation → Option LinkId
  | .insertNode edge node => if node.kind = kind ∧ node.dest = some id then some edge else none
  | .insertValue _ _ => none

def Operation.textOn? (id : LinkId) : Operation → Option String
  | .insertNode _ _ => none
  | .insertValue target text => if target = id then some text else none

namespace Batch

def edgesTo (kind id : LinkId) (batch : Batch) : List LinkId :=
  batch.filterMap (Operation.edgeTo? kind id)

def textsOn (id : LinkId) (batch : Batch) : List String := batch.filterMap (Operation.textOn? id)

/-- A batch that inserts each node together with an edge to it from the container, and a text on
that edge. -/
inductive Annotated (site : Site) : Batch → Prop where
  | nil : Annotated site []
  | cons {id kind edge : LinkId} {source dest : Option LinkId} {text : String} {rest : Batch}
      (kind_mem : kind ∈ [site.kinds.type, site.kinds.value, site.kinds.required])
      (annotated : Annotated site rest) :
      Annotated site
        (.insertNode id ⟨kind, source, dest⟩ ::
          .insertNode edge ⟨site.kinds.contain, some site.container, some id⟩ ::
          .insertValue edge text :: rest)

section Group

variable {id kind edge contain container x : LinkId} {source dest : Option LinkId} {text : String}
  {rest : Batch}

theorem edgesTo_group (hkind : kind ≠ contain) :
    edgesTo contain x (.insertNode id ⟨kind, source, dest⟩ ::
        .insertNode edge ⟨contain, some container, some id⟩ :: .insertValue edge text :: rest) =
      if id = x then edge :: edgesTo contain x rest else edgesTo contain x rest := by
  by_cases h : id = x <;> simp [edgesTo, List.filterMap_cons, Operation.edgeTo?, hkind, h]

theorem textsOn_group :
    textsOn x (.insertNode id ⟨kind, source, dest⟩ ::
        .insertNode edge ⟨contain, some container, some id⟩ :: .insertValue edge text :: rest) =
      if edge = x then text :: textsOn x rest else textsOn x rest := by
  by_cases h : edge = x <;> simp [textsOn, List.filterMap_cons, Operation.textOn?, h]

theorem inserted_group :
    inserted (.insertNode id ⟨kind, source, dest⟩ ::
        .insertNode edge ⟨contain, some container, some id⟩ :: .insertValue edge text :: rest) =
      id :: edge :: inserted rest := rfl

end Group

namespace Annotated

variable {site : Site} {batch : Batch} {x : LinkId}

theorem of_held {held : List Held}
    (h : ∀ a ∈ held, a.kind = .type ∨ a.kind = .value ∨ a.kind = .required) :
    Annotated site (held.flatMap (Held.batch site)) := by
  induction held with
  | nil => exact .nil
  | cons a rest ih =>
      have hkind : site.kinds.get a.kind ∈
          [site.kinds.type, site.kinds.value, site.kinds.required] := by
        rcases h a List.mem_cons_self with hk | hk | hk <;> simp [hk, KindTable.get]
      exact .cons hkind (ih fun b hb => h b (List.mem_cons_of_mem _ hb))

theorem textsOn_eq_nil (h : Annotated site batch)
    (hx : ∀ node, .insertNode x node ∈ batch → node.kind ≠ site.kinds.contain) :
    batch.textsOn x = [] := by
  induction h with
  | nil => rfl
  | @cons id kind edge source dest text rest _ _ ih =>
      have hedge : edge ≠ x := by
        rintro rfl
        exact hx _ (List.mem_cons_of_mem _ List.mem_cons_self) rfl
      rw [textsOn_group, if_neg hedge]
      exact ih fun node hnode => hx node (by simp [hnode])

section Kinds

variable (hkinds : site.kinds.contain ∉ [site.kinds.type, site.kinds.value, site.kinds.required])
include hkinds

theorem edgesTo_eq_nil (h : Annotated site batch) (hx : x ∉ batch.inserted) :
    batch.edgesTo site.kinds.contain x = [] := by
  induction h with
  | nil => rfl
  | @cons id kind edge source dest text rest kind_mem _ ih =>
      have hkind : kind ≠ site.kinds.contain := fun heq => hkinds (heq ▸ kind_mem)
      rw [inserted_group, List.mem_cons, List.mem_cons, not_or, not_or] at hx
      rw [edgesTo_group hkind, if_neg (Ne.symm hx.1)]
      exact ih hx.2.2

theorem once (h : Annotated site batch) (hnodup : batch.inserted.Nodup) {node : Node}
    (hnode : .insertNode x node ∈ batch) :
    if node.kind = site.kinds.contain then ∃ text, batch.textsOn x = [text]
    else ∃ edge, batch.edgesTo site.kinds.contain x = [edge] := by
  induction h with
  | nil => cases hnode
  | @cons id kind edge source dest text rest kind_mem annotated ih =>
      have hkind : kind ≠ site.kinds.contain := fun heq => hkinds (heq ▸ kind_mem)
      rw [inserted_group, List.nodup_cons, List.nodup_cons, List.mem_cons, not_or] at hnodup
      obtain ⟨⟨-, hid⟩, hedge, hrest⟩ := hnodup
      rw [edgesTo_group hkind, textsOn_group]
      simp only [List.mem_cons, Operation.insertNode.injEq, reduceCtorEq, false_or] at hnode
      rcases hnode with ⟨rfl, rfl⟩ | ⟨rfl, rfl⟩ | hnode
      · rw [if_neg hkind, if_pos rfl, annotated.edgesTo_eq_nil hkinds hid]
        exact ⟨edge, rfl⟩
      · have hnone : textsOn x rest = [] :=
          annotated.textsOn_eq_nil fun _ hmem => absurd (mem_inserted.mpr ⟨_, hmem⟩) hedge
        rw [if_pos rfl, if_pos rfl, hnone]
        exact ⟨text, rfl⟩
      · have hmem : x ∈ inserted rest := mem_inserted.mpr ⟨node, hnode⟩
        have hne : id ≠ x := fun heq => hid (heq ▸ hmem)
        have hne' : edge ≠ x := fun heq => hedge (heq ▸ hmem)
        rw [if_neg hne, if_neg hne']
        exact ih hrest hnode

end Kinds

end Annotated

end Batch

theorem Forest.annotated (site : Site) (parent : Option LinkId) (f : Forest Numbered) :
    Batch.Annotated site (f.batch site parent) := by
  rw [f.batch_eq_held]
  exact .of_held fun _ hmem => kind_of_held hmem

namespace Site

variable {site : Site} {place : Place} {s : Schema} {p rest : Pool} {batch : Batch}

/-- What is built comes in threes: a node, the edge to it from the container, and the text on that
edge. So there are three operations for two ids, and if the ids are distinct and the kind of these
edges is another one than those of the nodes, nothing is contained or given a text twice. -/
theorem built_annotated (h : (site.build place s).run p = .ok batch rest) :
    batch.Annotated site ∧ ∃ used, p.toList = rest.toList ++ used ∧
      2 * batch.length = 3 * used.length ∧
      (used.Nodup →
        site.kinds.contain ∉ [site.kinds.type, site.kinds.value, site.kinds.required] →
        (∀ id node, .insertNode id node ∈ batch →
          if node.kind = site.kinds.contain then ∃ text, batch.textsOn id = [text]
          else ∃ edge, batch.edgesTo site.kinds.contain id = [edge]) ∧
        ∀ id, (∀ node, .insertNode id node ∈ batch → node.kind ≠ site.kinds.contain) →
          batch.textsOn id = []) := by
  obtain ⟨f, -, rfl, rfl⟩ := build_eq_ok_iff.mp h
  have hannotated := f.annotated site place.parent
  refine ⟨hannotated, f.ids.reverse, List.reverse_append, ?_, fun hids hkinds => ⟨?_, ?_⟩⟩
  · rw [List.length_reverse]
    exact f.length_batch site place.parent
  · intro id node hnode
    have hnodup : (f.batch site place.parent).inserted.Nodup := by
      rw [f.inserted_batch]
      exact List.nodup_reverse.mp hids
    exact hannotated.once hkinds hnodup hnode
  · exact fun id hid => hannotated.textsOn_eq_nil hid

theorem nested_annotated :
    let site : Site := ⟨500, ⟨1, 2, 1, 1, 2, 2, 2⟩⟩
    let pair : Schema := .tuple none [.other, .list none (.boolean true)]
    let s : Schema := .object none [("name", .string none), ("pair", pair)] (.ofList ["name"])
    ∃ batch rest, (site.build ⟨some 77, "x", true⟩ s).run (.consecutive 100 22) = .ok batch rest ∧
      batch.Annotated site ∧ ∀ id node, .insertNode id node ∈ batch →
        if node.kind = 2 then ∃ text, batch.textsOn id = [text]
        else ∃ edge, batch.edgesTo 2 id = [edge] := by
  intro site pair s
  obtain ⟨batch, rest, h⟩ : ∃ batch rest,
      (site.build ⟨some 77, "x", true⟩ s).run (.consecutive 100 22) = .ok batch rest := ⟨_, _, rfl⟩
  obtain ⟨hannotated, used, hused, -, honce⟩ := built_annotated h
  have hnodup : (Pool.consecutive 100 22).toList.Nodup := by decide
  rw [hused] at hnodup
  have hkinds : site.kinds.contain ∉ [site.kinds.type, site.kinds.value, site.kinds.required] := by
    decide
  exact ⟨batch, rest, h, hannotated, (honce (List.nodup_append.mp hnodup).2.1 hkinds).1⟩

end Site

end LinkGraph
