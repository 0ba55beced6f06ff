import LinkGraph.Proofs.Schema.Outline
import LinkGraph.Proofs.Store.Sound
import Mathlib.Data.List.Sort

namespace LinkGraph.Store

def linksBetween (s : Store) (kind source dest : LinkId) : List Link :=
  (s.linksOfKind kind).filter fun l => l.source = some source ∧ l.dest = some dest

def label? (s : Store) (site : Site) (node : LinkId) : Option String :=
  match s.linksBetween site.kinds.contain site.container node with
  | [edge] => s.string? edge.id
  | _ => none

def valueType? (s : Store) (site : Site) (node : LinkId) : Option LinkId :=
  match (s.linksOfKind site.kinds.value).filter (·.source = some node) with
  | [value] => value.dest
  | _ => none

def children (s : Store) (site : Site) (node : LinkId) : List LinkId :=
  ((s.linksBetween site.kinds.type node node).map (·.id)).reverse

def isMarked (s : Store) (site : Site) (parent : Option LinkId) (name : String) : Bool :=
  parent.any fun node =>
    (s.linksBetween site.kinds.required node node).any fun mark =>
      (s.linksBetween site.kinds.contain site.container mark.id).any fun edge =>
        s.string? edge.id = some (name ++ "Required")

/-- What is read off the nodes below a parent. -/
inductive ReadsAs (s : Store) (site : Site) :
    Option LinkId → List LinkId → Forest Entity → Prop where
  | nil (parent : Option LinkId) : ReadsAs s site parent [] .nil
  | cons {parent : Option LinkId} {node : LinkId} {rest : List LinkId} {name : String} {kind : Kind}
      {below next : Forest Entity} (label : s.label? site node = some name)
      (value : s.valueType? site node = some (site.kinds.get kind))
      (inner : ReadsAs s site (some node) (s.children site node) below)
      (outer : ReadsAs s site parent rest next) :
      ReadsAs s site parent (node :: rest)
        (.cons ⟨name, kind, s.isMarked site parent name⟩ below next)

variable {s : Store} {site : Site}

theorem ReadsAs.unique (hkinds : Function.Injective site.kinds.get) {parent : Option LinkId}
    {nodes : List LinkId} {f g : Forest Entity} (hf : s.ReadsAs site parent nodes f)
    (hg : s.ReadsAs site parent nodes g) : f = g := by
  induction hf generalizing g with
  | nil =>
      cases hg
      rfl
  | cons label value _ _ ihInner ihOuter =>
      cases hg with
      | cons label' value' inner' outer' =>
          obtain rfl := Option.some.inj (label.symm.trans label')
          obtain rfl := hkinds (Option.some.inj (value.symm.trans value'))
          rw [ihInner inner', ihOuter outer']

theorem nodup_of_ascending {links : List Link} (h : links.Pairwise fun l l' => l.id < l'.id) :
    links.Nodup :=
  h.imp fun hlt heq => Nat.ne_of_lt hlt (congrArg Link.id heq)

section Keyed

/-! In a closed store links stand under their own ids. -/

variable (hs : s.Closed)
include hs

theorem mem_allLinks {l : Link} : l ∈ s.allLinks ↔ s.links[l.id]? = some l := by
  rw [allLinks, List.mem_map]
  constructor
  · rintro ⟨⟨id, l⟩, hmem, rfl⟩
    have hl := Std.ExtTreeMap.mem_toList_iff_getElem?_eq_some.mp hmem
    dsimp only
    rw [hs.keyed hl, hl]
  · intro h
    exact ⟨(l.id, l), Std.ExtTreeMap.mem_toList_iff_getElem?_eq_some.mpr h, rfl⟩

theorem mem_linksOfKind {kind : LinkId} {l : Link} :
    l ∈ s.linksOfKind kind ↔ s.links[l.id]? = some l ∧ l.kind = kind := by
  rw [linksOfKind, List.mem_filter, decide_eq_true_eq, mem_allLinks hs]

theorem links_eq_some_iff {id : LinkId} {node : Node} :
    s.links[id]? = some ⟨node, id⟩ ↔ s.node? id = some node := by
  rw [node?_eq_some_iff]
  constructor
  · intro hl
    exact ⟨_, hl, rfl⟩
  · rintro ⟨⟨node, key⟩, hl, rfl⟩
    obtain rfl := hs.keyed hl
    exact hl

theorem ascending_allLinks : s.allLinks.Pairwise fun l l' => l.id < l'.id := by
  have hkeys : ∀ p ∈ s.links.toList, p.2.id = p.1 := fun p hp =>
    hs.keyed (Std.ExtTreeMap.mem_toList_iff_getElem?_eq_some.mp hp)
  rw [allLinks, List.pairwise_map]
  refine s.links.ordered_keys_toList.imp_of_mem fun {p q} hp hq h => ?_
  rw [hkeys p hp, hkeys q hq]
  exact Nat.compare_eq_lt.mp h

theorem ascending_linksOfKind (kind : LinkId) :
    (s.linksOfKind kind).Pairwise fun l l' => l.id < l'.id :=
  (ascending_allLinks hs).filter _

theorem mem_linksBetween {kind source dest : LinkId} {l : Link} :
    l ∈ s.linksBetween kind source dest ↔
      s.node? l.id = some ⟨kind, some source, some dest⟩ ∧
        l.toNode = ⟨kind, some source, some dest⟩ := by
  rw [linksBetween, List.mem_filter, mem_linksOfKind hs, decide_eq_true_eq, ← links_eq_some_iff hs]
  obtain ⟨⟨k, src, dst⟩, id⟩ := l
  constructor
  · rintro ⟨⟨hlink, rfl⟩, rfl, rfl⟩
    exact ⟨hlink, rfl⟩
  · rintro ⟨hlink, hnode⟩
    cases hnode
    exact ⟨⟨hlink, rfl⟩, rfl, rfl⟩

theorem filter_eq_singleton {kind : LinkId} {p : Link → Bool} {a : Link}
    (h : ∀ l, l ∈ (s.linksOfKind kind).filter p ↔ l = a) : (s.linksOfKind kind).filter p = [a] := by
  have hnodup : ((s.linksOfKind kind).filter p).Nodup :=
    nodup_of_ascending ((ascending_linksOfKind hs kind).filter p)
  refine List.perm_singleton.mp ?_
  refine (List.perm_ext_iff_of_nodup hnodup (List.nodup_singleton a)).mpr ?_
  intro l
  rw [List.mem_singleton]
  exact h l

theorem linksBetween_eq_singleton {kind source dest x : LinkId}
    (h : ∀ id, s.node? id = some ⟨kind, some source, some dest⟩ ↔ id = x) :
    s.linksBetween kind source dest = [⟨⟨kind, some source, some dest⟩, x⟩] := by
  refine filter_eq_singleton hs fun l => ?_
  refine (mem_linksBetween hs).trans ?_
  rw [h]
  obtain ⟨node, id⟩ := l
  rw [Link.mk.injEq, and_comm]

theorem label?_eq_some {node edge : LinkId} {text : String}
    (hedge : ∀ id,
      s.node? id = some ⟨site.kinds.contain, some site.container, some node⟩ ↔ id = edge)
    (htext : s.strings[edge]? = some text) : s.label? site node = some text := by
  rw [label?, linksBetween_eq_singleton hs hedge]
  exact htext

theorem valueType?_eq_some {node value dest : LinkId}
    (h : ∀ id d,
      s.node? id = some ⟨site.kinds.value, some node, d⟩ ↔ id = value ∧ d = some dest) :
    s.valueType? site node = some dest := by
  have hvalue : (s.linksOfKind site.kinds.value).filter (·.source = some node) =
      [⟨⟨site.kinds.value, some node, some dest⟩, value⟩] := by
    refine filter_eq_singleton hs fun l => ?_
    rw [List.mem_filter, mem_linksOfKind hs, decide_eq_true_eq]
    obtain ⟨⟨kind, source, d⟩, id⟩ := l
    constructor
    · rintro ⟨⟨hlink, rfl⟩, rfl⟩
      obtain ⟨rfl, rfl⟩ := (h _ _).mp ((links_eq_some_iff hs).mp hlink)
      rfl
    · rintro ⟨⟩
      exact ⟨⟨(links_eq_some_iff hs).mpr ((h _ _).mpr ⟨rfl, rfl⟩), rfl⟩, rfl⟩
  rw [valueType?, hvalue]

theorem children_eq {node : LinkId} {nodes : List LinkId} (hnodes : nodes.Pairwise (· > ·))
    (h : ∀ id, s.node? id = some ⟨site.kinds.type, some node, some node⟩ ↔ id ∈ nodes) :
    s.children site node = nodes := by
  have hids : (s.children site node).Pairwise (· > ·) := by
    rw [children, List.pairwise_reverse, List.pairwise_map]
    exact (ascending_linksOfKind hs site.kinds.type).filter _
  refine hids.eq_of_mem_iff hnodes fun {id} => ?_
  rw [children, List.mem_reverse, List.mem_map, ← h]
  constructor
  · rintro ⟨l, hl, rfl⟩
    exact ((mem_linksBetween hs).mp hl).1
  · intro hlink
    exact ⟨⟨⟨_, _, _⟩, id⟩, (mem_linksBetween hs).mpr ⟨hlink, rfl⟩, rfl⟩

theorem isMarked_iff {node : LinkId} {name : String} :
    s.isMarked site (some node) name = true ↔
      ∃ mark edge : LinkId, s.node? mark = some ⟨site.kinds.required, some node, some node⟩ ∧
        s.node? edge = some ⟨site.kinds.contain, some site.container, some mark⟩ ∧
        s.strings[edge]? = some (name ++ "Required") := by
  simp only [isMarked, Option.any_some, List.any_eq_true]
  constructor
  · rintro ⟨mark, hmark, edge, hedge, htext⟩
    exact ⟨mark.id, edge.id, ((mem_linksBetween hs).mp hmark).1, ((mem_linksBetween hs).mp hedge).1,
      of_decide_eq_true htext⟩
  · rintro ⟨mark, edge, hmark, hedge, htext⟩
    exact ⟨⟨⟨_, _, _⟩, mark⟩, (mem_linksBetween hs).mpr ⟨hmark, rfl⟩, ⟨⟨_, _, _⟩, edge⟩,
      (mem_linksBetween hs).mpr ⟨hedge, rfl⟩, decide_eq_true htext⟩

end Keyed

end LinkGraph.Store
