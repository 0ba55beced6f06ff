import LinkGraph.Proofs.Json.Pieces
import LinkGraph.Proofs.Plan.Annotation
import LinkGraph.Proofs.Schema.Names
import Mathlib.Data.List.Nodup

namespace LinkGraph

namespace Batch

variable {batch : Batch} {kind id edge : LinkId} {text : String}

def textsTo (kind id : LinkId) (batch : Batch) : List String :=
  (batch.edgesTo kind id).flatMap fun edge => batch.textsOn edge

theorem mem_edgesTo :
    edge ∈ batch.edgesTo kind id ↔ ∃ source, .insertNode edge ⟨kind, source, some id⟩ ∈ batch := by
  rw [edgesTo, List.mem_filterMap]
  constructor
  · rintro ⟨op, hop, hedge⟩
    cases op with
    | insertNode x node =>
        obtain ⟨k, source, dest⟩ := node
        rw [Operation.edgeTo?, Option.ite_none_right_eq_some] at hedge
        obtain ⟨⟨rfl, rfl⟩, ⟨⟩⟩ := hedge
        exact ⟨source, hop⟩
    | insertValue target text => cases hedge
  · rintro ⟨source, hop⟩
    exact ⟨_, hop, if_pos ⟨rfl, rfl⟩⟩

theorem mem_textsOn : text ∈ batch.textsOn id ↔ .insertValue id text ∈ batch := by
  rw [textsOn, List.mem_filterMap]
  constructor
  · rintro ⟨op, hop, htext⟩
    cases op with
    | insertNode x node => cases htext
    | insertValue target t =>
        rw [Operation.textOn?, Option.ite_none_right_eq_some] at htext
        obtain ⟨rfl, ⟨⟩⟩ := htext
        exact hop
  · exact fun hop => ⟨_, hop, if_pos rfl⟩

end Batch

theorem KindTable.contain_not_mem (table : KindTable) (h : Function.Injective table.get) :
    table.contain ∉ [table.type, table.value, table.required] := by
  have hne (kind : Kind) (hkind : kind ≠ .contain) : table.get .contain ≠ table.get kind :=
    fun heq => hkind (h heq).symm
  simp only [List.mem_cons, List.not_mem_nil, or_false, not_or]
  exact ⟨hne .type (by decide), hne .value (by decide), hne .required (by decide)⟩

namespace Forest

variable {site : Site} {f : Forest Numbered} {parent : Option LinkId} {e e' : Entry}

theorem apart_entry {name : Numbered → String} (h : f.Apart name) (he : e ∈ f.entries parent) :
    e.below.Apart name := by
  induction f generalizing parent with
  | nil => cases he
  | cons a below next ihBelow ihNext =>
      rcases List.mem_cons.mp he with rfl | he
      · exact h.2.1
      · rcases List.mem_append.mp he with he | he
        · exact ihBelow h.2.1 he
        · exact ihNext h.2.2 he

theorem entry_eq_of_name (hids : f.ids.Nodup) (hnames : f.Apart Numbered.name)
    (he : e ∈ f.entries none) (he' : e' ∈ f.entries none) (hparent : e.parent = e'.parent)
    (hname : e.label.name = e'.label.name) : e = e' := by
  have hlabel : e.label = e'.label := by
    rcases parent_of_entry he with ⟨hnone, hroot⟩ | ⟨d, hd, hsome, hroot⟩
    · rcases parent_of_entry he' with ⟨-, hroot'⟩ | ⟨d', -, hsome', -⟩
      · exact hnames.eq_of_name hroot hroot' hname
      · cases hnone.symm.trans (hparent.trans hsome')
    · rcases parent_of_entry he' with ⟨hnone', -⟩ | ⟨d', hd', hsome', hroot'⟩
      · cases hnone'.symm.trans (hparent.symm.trans hsome)
      · have htype : d.label.type = d'.label.type :=
          Option.some.inj (hsome.symm.trans (hparent.trans hsome'))
        obtain rfl := entry_unique hids hd hd' htype
        exact (apart_entry hnames hd).eq_of_name hroot hroot' hname
  exact entry_unique hids he he' (congrArg Numbered.type hlabel)

section Kinds

variable (hkinds : Function.Injective site.kinds.get) (hids : f.ids.Nodup) {h : Held}
  (hmem : h ∈ f.held site parent)
include hkinds hids hmem

theorem edgesTo_held : (f.batch site parent).edgesTo site.kinds.contain h.id = [h.edge] := by
  have hkind : (h.node site).kind ≠ site.kinds.contain := by
    intro heq
    have hk : h.kind = .contain := hkinds heq
    rcases kind_of_held hmem with hk' | hk' | hk' <;> cases hk.symm.trans hk'
  have hnodup : (f.batch site parent).inserted.Nodup := by rwa [f.inserted_batch]
  have honce := (f.annotated site parent).once (site.kinds.contain_not_mem hkinds) hnodup
    (insertNode_mem_batch.mpr ⟨h, hmem, .inl ⟨rfl, rfl⟩⟩)
  rw [if_neg hkind] at honce
  obtain ⟨edge, hedges⟩ := honce
  have hedge : h.edge ∈ (f.batch site parent).edgesTo site.kinds.contain h.id :=
    Batch.mem_edgesTo.mpr
      ⟨some site.container, insertNode_mem_batch.mpr ⟨h, hmem, .inr ⟨rfl, rfl⟩⟩⟩
  rw [hedges] at hedge ⊢
  rw [List.mem_singleton.mp hedge]

theorem textsOn_held : (f.batch site parent).textsOn h.edge = [h.text] := by
  have hnodup : (f.batch site parent).inserted.Nodup := by rwa [f.inserted_batch]
  have honce := (f.annotated site parent).once (site.kinds.contain_not_mem hkinds) hnodup
    (insertNode_mem_batch.mpr ⟨h, hmem, .inr ⟨rfl, rfl⟩⟩)
  have hkind : (h.edgeNode site).kind = site.kinds.contain := rfl
  rw [if_pos hkind] at honce
  obtain ⟨text, htexts⟩ := honce
  have htext : h.text ∈ (f.batch site parent).textsOn h.edge :=
    Batch.mem_textsOn.mpr (insertValue_mem_batch.mpr ⟨h, hmem, rfl, rfl⟩)
  rw [htexts] at htext ⊢
  rw [List.mem_singleton.mp htext]

theorem textsTo_held : (f.batch site parent).textsTo site.kinds.contain h.id = [h.text] := by
  rw [Batch.textsTo, edgesTo_held hkinds hids hmem, List.flatMap_singleton,
    textsOn_held hkinds hids hmem]

end Kinds

section Entries

variable (hkinds : Function.Injective site.kinds.get) (hids : f.ids.Nodup)
  (he : e ∈ f.entries parent)
include hkinds hids he

theorem textsTo_type :
    (f.batch site parent).textsTo site.kinds.contain e.label.type = [e.label.name] :=
  textsTo_held hkinds hids (mem_held.mpr ⟨e, he, Numbered.mem_held.mpr (.inl rfl)⟩)

theorem textsTo_mark {mark edge : LinkId} (hmark : e.label.mark = some (mark, edge)) :
    (f.batch site parent).textsTo site.kinds.contain mark = [e.label.name ++ "Required"] :=
  textsTo_held hkinds hids
    (mem_held.mpr ⟨e, he, Numbered.mem_held.mpr (.inr (.inr ⟨mark, edge, hmark, rfl⟩))⟩)

end Entries

section Siblings

variable (hkinds : Function.Injective site.kinds.get) (hids : f.ids.Nodup)
  (hnames : f.Apart Numbered.name) {source dest : Option LinkId} {id id' : LinkId}
include hkinds hids hnames

theorem types_named_apart (hne : id ≠ id')
    (h : .insertNode id ⟨site.kinds.type, source, dest⟩ ∈ f.batch site none)
    (h' : .insertNode id' ⟨site.kinds.type, source, dest⟩ ∈ f.batch site none) :
    ∃ name name', (f.batch site none).textsTo site.kinds.contain id = [name] ∧
      (f.batch site none).textsTo site.kinds.contain id' = [name'] ∧ name ≠ name' := by
  obtain ⟨e, he, rfl, rfl, -⟩ := (type_mem_batch hkinds).mp h
  obtain ⟨e', he', rfl, hparent, -⟩ := (type_mem_batch hkinds).mp h'
  refine ⟨_, _, textsTo_type hkinds hids he, textsTo_type hkinds hids he', fun hname => hne ?_⟩
  rw [entry_eq_of_name hids hnames he he' hparent.symm hname]

theorem marks_named_apart (hne : id ≠ id')
    (h : .insertNode id ⟨site.kinds.required, source, dest⟩ ∈ f.batch site none)
    (h' : .insertNode id' ⟨site.kinds.required, source, dest⟩ ∈ f.batch site none) :
    ∃ name name', (f.batch site none).textsTo site.kinds.contain id = [name] ∧
      (f.batch site none).textsTo site.kinds.contain id' = [name'] ∧ name ≠ name' := by
  obtain ⟨e, he, edge, hmark, rfl, -⟩ := (mark_mem_batch hkinds).mp h
  obtain ⟨e', he', edge', hmark', hparent, -⟩ := (mark_mem_batch hkinds).mp h'
  refine ⟨_, _, textsTo_mark hkinds hids he hmark, textsTo_mark hkinds hids he' hmark',
    fun hname => hne ?_⟩
  rw [String.append_left_inj] at hname
  obtain rfl := entry_eq_of_name hids hnames he he' hparent.symm hname
  cases hmark.symm.trans hmark'
  rfl

theorem marked_type_unique {mark : LinkId}
    (h : .insertNode mark ⟨site.kinds.required, source, dest⟩ ∈ f.batch site none) :
    ∃! id, .insertNode id ⟨site.kinds.type, source, dest⟩ ∈ f.batch site none ∧
      ∃ name, (f.batch site none).textsTo site.kinds.contain id = [name] ∧
        (f.batch site none).textsTo site.kinds.contain mark = [name ++ "Required"] := by
  obtain ⟨e, he, edge, hmark, rfl, rfl⟩ := (mark_mem_batch hkinds).mp h
  have htexts := textsTo_mark hkinds hids he hmark
  refine ⟨e.label.type, ⟨(type_mem_batch hkinds).mpr ⟨e, he, rfl, rfl, rfl⟩, _,
    textsTo_type hkinds hids he, htexts⟩, ?_⟩
  rintro id ⟨hid, name, hname, hname'⟩
  obtain ⟨e', he', rfl, hparent, -⟩ := (type_mem_batch hkinds).mp hid
  rw [textsTo_type hkinds hids he', List.singleton_inj] at hname
  rw [htexts, List.singleton_inj, String.append_left_inj, ← hname] at hname'
  rw [entry_eq_of_name hids hnames he he' hparent.symm hname']

end Siblings

end Forest

namespace Plan

/-- Where no object of a document has a key twice, which is so if it is read from a text, nodes of
one kind on one parent differ by name, and the mark of what is required is named after one type
there. -/
theorem siblings_named_apart {j : Json} {ids : List LinkId} {site : Site} {plan : Plan}
    (hj : j.DistinctKeys ∨ ∃ text, Json.read? text = some j) (hids : ids.Nodup)
    (hkinds : Function.Injective site.kinds.get)
    (h : compile (Schema.ofJson j) (.ofList ids) site = .ok plan) :
    let names := fun id => plan.batch.textsTo site.kinds.contain id
    (∀ kind ∈ [site.kinds.type, site.kinds.required], ∀ source dest id id', id ≠ id' →
      .insertNode id ⟨kind, source, dest⟩ ∈ plan.batch →
      .insertNode id' ⟨kind, source, dest⟩ ∈ plan.batch →
      ∃ name name', names id = [name] ∧ names id' = [name'] ∧ name ≠ name') ∧
    ∀ source dest mark, .insertNode mark ⟨site.kinds.required, source, dest⟩ ∈ plan.batch →
      ∃! id, .insertNode id ⟨site.kinds.type, source, dest⟩ ∈ plan.batch ∧
        ∃ name, names id = [name] ∧ names mark = [name ++ "Required"] := by
  have hdistinct : j.DistinctKeys := hj.elim id fun ⟨_, hread⟩ => .of_read hread
  have hcompiled := compile_compiled (Schema.ofJson j) ids site
  rw [h] at hcompiled
  clear h
  cases hcompiled with
  | @done f entities drawn =>
      have hnodup : f.ids.Nodup := by
        rw [drawn]
        exact List.nodup_reverse.mpr hids
      have hnames : f.Apart Numbered.name := by
        have hskeleton := (Schema.DistinctNames.ofJson hdistinct).apart_skeleton
        rw [← entities] at hskeleton
        exact Forest.apart_map (k := Numbered.entity) hskeleton
      intro names
      refine ⟨fun kind hkind source dest id id' hne hmem hmem' => ?_,
        fun source dest mark hmem => ?_⟩
      · rw [List.mem_cons, List.mem_singleton] at hkind
        rcases hkind with rfl | rfl
        · exact Forest.types_named_apart hkinds hnodup hnames hne hmem hmem'
        · exact Forest.marks_named_apart hkinds hnodup hnames hne hmem hmem'
      · exact Forest.marked_type_unique hkinds hnodup hnames hmem

theorem repeated_property_named_apart :
    let text :=
      "\x7b\"required\":[\"a\"],\"properties\":\x7b\"a\":1,\"b\":true,\"a\":true\x7d\x7d"
    ∃ j plan, Json.read? text = some j ∧
      compile (Schema.ofJson j) (.consecutive 8 14) ⟨500, .core⟩ = .ok plan ∧
      (∃ name name', plan.batch.textsTo 2 17 = [name] ∧ plan.batch.textsTo 2 11 = [name'] ∧
        name ≠ name') ∧
      ∃! id, .insertNode id ⟨1, some 21, some 21⟩ ∈ plan.batch ∧
        ∃ name, plan.batch.textsTo 2 id = [name] ∧
          plan.batch.textsTo 2 13 = [name ++ "Required"] := by
  intro text
  let j : Json := .obj [("required", .arr [.str "a"]),
    ("properties", .obj [("a", .bool true), ("b", .bool true)])]
  have htokens : Json.Mode.between.tokens text.toList =
      [.openObject, .str "required", .colon, .openArray, .str "a", .closeArray, .comma,
        .str "properties", .colon, .openObject, .str "a", .colon, .num (some (.ofInt 1)), .comma,
        .str "b", .colon, .bool true, .comma, .str "a", .colon, .bool true, .closeObject,
        .closeObject] := by
    decide +kernel
  have hread : Json.read? text = some j := by
    rw [Json.read?, Json.draft_of_tokens htokens rfl]
    rfl
  obtain ⟨hapart, hmark⟩ := @siblings_named_apart j (List.range' 8 14) ⟨500, .core⟩ _
    (.inr ⟨text, hread⟩) List.nodup_range' KindTable.get_core_injective rfl
  refine ⟨j, _, hread, rfl, ?_, hmark (some 21) (some 21) 13 (by decide)⟩
  exact hapart 1 (by decide) (some 21) (some 21) 17 11 (by decide) (by decide) (by decide)

end Plan

end LinkGraph
