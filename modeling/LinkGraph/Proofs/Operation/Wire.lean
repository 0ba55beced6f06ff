import LinkGraph.Operation.Wire
import LinkGraph.Proofs.Json.Natural
import LinkGraph.Proofs.Json.Rebuilt
import LinkGraph.Proofs.Kind.Wire

namespace LinkGraph.Operation

open Json

structure Sized (op : Operation) : Prop where
  inserted : ∀ id ∈ op.inserted?, id < 18446744073709551616
  references : ∀ id ∈ op.references, id < 18446744073709551616

def fieldsJson : Operation → List (String × Json)
  | .insertNode id node =>
      [("id", .ofNat id), ("kind", .ofNat node.kind)] ++
        node.source.toList.map (fun id => ("from", .ofNat id)) ++
        node.dest.toList.map (fun id => ("to", .ofNat id))
  | .insertValue target value => [("target", .ofNat target), ("value", .str value)]

section Fields

variable {id : LinkId}

theorem optionalId_ofNat (h : id < 18446744073709551616) :
    optionalId (.ofNat id) = .ok (some id) := by
  have hnull : (Json.ofNat id).isNull = false := by
    rw [ofNat_of_lt h]
    rfl
  rw [optionalId, hnull, id_head_ofNat h]
  rfl

theorem once_none {α : Type} (name : String) {a : α} {read : Except ShapeError α}
    (h : read = .ok a) : once name none read = .ok (some a) := by
  rw [h]
  rfl

theorem foldlM_cons_ok {α β ε : Type} {f : α → β → Except ε α} {a a' : α} {b : β} {l : List β}
    (h : f a b = .ok a') : (b :: l).foldlM f a = l.foldlM f a' := by
  rw [List.foldlM_cons, h]
  rfl

namespace NodeFields

variable {known : NodeFields}

def take (known : NodeFields) (m : String × Json) : Except ShapeError NodeFields :=
  known.add m.1 m.2

theorem take_id (hnew : known.id = none) (h : id < 18446744073709551616) :
    known.take ("id", .ofNat id) = .ok { known with id := some id } := by
  simp only [take, add, hnew, once_none _ (id_head_ofNat h)]
  rfl

theorem take_kind (hnew : known.kind = none) (h : id < 18446744073709551616) :
    known.take ("kind", .ofNat id) = .ok { known with kind := some id } := by
  simp only [take, add, hnew, once_none _ (id_head_ofNat h)]
  rfl

theorem take_from (hnew : known.source = none) (h : id < 18446744073709551616) :
    known.take ("from", .ofNat id) = .ok { known with source := some (some id) } := by
  simp only [take, add, hnew, once_none _ (optionalId_ofNat h)]
  rfl

theorem take_to (hnew : known.dest = none) (h : id < 18446744073709551616) :
    known.take ("to", .ofNat id) = .ok { known with dest := some (some id) } := by
  simp only [take, add, hnew, once_none _ (optionalId_ofNat h)]
  rfl

theorem foldlM_take {node : Node} (hid : id < 18446744073709551616)
    (hreferences : ∀ id ∈ node.references, id < 18446744073709551616) :
    (fieldsJson (.insertNode id node)).foldlM take {} =
      .ok ⟨some id, some node.kind, node.source.map some, node.dest.map some⟩ := by
  obtain ⟨kind, source, dest⟩ := node
  simp only [Node.references, List.forall_mem_cons, List.forall_mem_append, Option.mem_toList]
    at hreferences
  obtain ⟨hkind, hsource, hdest⟩ := hreferences
  simp only [fieldsJson, List.cons_append, List.nil_append]
  rw [foldlM_cons_ok (take_id rfl hid), foldlM_cons_ok (take_kind rfl hkind)]
  cases source with
  | none =>
      cases dest with
      | none => rfl
      | some dest => exact foldlM_cons_ok (take_to rfl (hdest dest rfl))
  | some source =>
      refine (foldlM_cons_ok (take_from rfl (hsource source rfl))).trans ?_
      cases dest with
      | none => rfl
      | some dest => exact foldlM_cons_ok (take_to rfl (hdest dest rfl))

end NodeFields

namespace ValueFields

variable {known : ValueFields}

def take (known : ValueFields) (m : String × Json) : Except ShapeError ValueFields :=
  known.add m.1 m.2

theorem take_target (hnew : known.target = none) (h : id < 18446744073709551616) :
    known.take ("target", .ofNat id) = .ok { known with target := some id } := by
  simp only [take, add, hnew, once_none _ (id_head_ofNat h)]
  rfl

theorem take_value (hnew : known.value = none) (value : String) :
    known.take ("value", .str value) = .ok { known with value := some value } := by
  have hread : (Json.str value).head.string "a string" = .ok value := rfl
  simp only [take, add, hnew, once_none _ hread]
  rfl

end ValueFields

end Fields

section ReadBack

variable {op : Operation}

def tag : Operation → Tag
  | .insertNode _ _ => .insertNode
  | .insertValue _ _ => .insertValue

theorem toJson_eq (op : Operation) :
    op.toJson = .obj (("op", .str op.tag.name) :: op.fieldsJson) := by
  cases op <;> rfl

theorem ofName_name (tag : Tag) : Tag.ofName tag.name = .ok tag := by
  cases tag <;> rfl

theorem ofFields_fieldsJson (h : op.Sized) : ofFields op.tag op.fieldsJson = .ok op := by
  cases op with
  | insertNode id node =>
      have hfold := NodeFields.foldlM_take (h.inserted id rfl) h.references
      obtain ⟨kind, source, dest⟩ := node
      change (do NodeFields.finish (← List.foldlM NodeFields.take {} _)) = _
      rw [hfold]
      cases source <;> cases dest <;> rfl
  | insertValue target value =>
      have htarget : target < 18446744073709551616 := h.references target List.mem_cons_self
      change (do ValueFields.finish (← List.foldlM ValueFields.take {} _)) = _
      rw [fieldsJson, foldlM_cons_ok (ValueFields.take_target rfl htarget),
        foldlM_cons_ok (ValueFields.take_value rfl value)]
      rfl

theorem splitMembers_memberDrafts {depth : Nat} {fields done : List (String × Json)} {tag : Tag}
    (hkeys : ∀ m ∈ fields, m.1 ≠ "op")
    (hvalues : ∀ m ∈ fields, m.2.toDraft.value depth = .ok m.2) :
    splitMembers depth (some tag) done (memberDrafts fields) =
      .ok (some tag, done.reverse ++ fields) := by
  induction fields generalizing done with
  | nil => simp [splitMembers, memberDrafts]
  | cons m rest ih =>
      obtain ⟨key, j⟩ := m
      obtain ⟨hkey, hkeys⟩ := List.forall_mem_cons.mp hkeys
      obtain ⟨hvalue, hvalues⟩ := List.forall_mem_cons.mp hvalues
      rw [memberDrafts, splitMembers, if_neg hkey, hvalue]
      refine (ih hkeys hvalues).trans ?_
      rw [List.reverse_cons, List.append_assoc, List.singleton_append]

inductive FieldValue : Json → Prop where
  | id {id : LinkId} (h : id < 18446744073709551616) : FieldValue (.ofNat id)
  | text (s : String) : FieldValue (.str s)

theorem FieldValue.whole {j : Json} (h : FieldValue j) : j.Whole := by
  cases h with
  | id h => exact whole_ofNat h
  | text s => exact .str s

theorem FieldValue.value_toDraft {j : Json} (h : FieldValue j) (depth : Nat) :
    j.toDraft.value depth = .ok j := by
  cases h with
  | id h =>
      rw [ofNat_of_lt h]
      rfl
  | text s => rfl

theorem of_mem_fieldsJson (h : op.Sized) {m : String × Json} (hm : m ∈ op.fieldsJson) :
    m.1 ≠ "op" ∧ FieldValue m.2 := by
  cases op with
  | insertNode id node =>
      have hid := h.inserted id rfl
      have hend {side : LinkId} (hside : node.source = some side ∨ node.dest = some side) :
          side < 18446744073709551616 := by
        apply h.references
        rw [references, Node.mem_references]
        rcases hside with hsource | hdest
        · exact .inr ⟨.source, hsource⟩
        · exact .inr ⟨.dest, hdest⟩
      simp only [fieldsJson, List.cons_append, List.nil_append, List.mem_cons, List.mem_append,
        List.mem_map, Option.mem_toList] at hm
      rcases hm with rfl | rfl | ⟨side, hside, rfl⟩ | ⟨side, hside, rfl⟩
      · exact ⟨by simp, .id hid⟩
      · exact ⟨by simp, .id (h.references node.kind List.mem_cons_self)⟩
      · exact ⟨by simp, .id (hend (.inl hside))⟩
      · exact ⟨by simp, .id (hend (.inr hside))⟩
  | insertValue target value =>
      simp only [fieldsJson, List.mem_cons, List.not_mem_nil, or_false] at hm
      rcases hm with rfl | rfl
      · exact ⟨by simp, .id (h.references target List.mem_cons_self)⟩
      · exact ⟨by simp, .text value⟩

theorem whole_toJson (h : op.Sized) : op.toJson.Whole := by
  rw [toJson_eq]
  exact .obj (List.forall_mem_cons.mpr ⟨.str _, fun m hm => (of_mem_fieldsJson h hm).2.whole⟩)

theorem ofDraft_toJson (h : op.Sized) (depth : Nat) : ofDraft depth op.toJson.toDraft = .ok op := by
  have hsplit : splitMembers depth none []
      (memberDrafts (("op", .str op.tag.name) :: op.fieldsJson)) =
      .ok (some op.tag, op.fieldsJson) := by
    have htag : tagOf (Json.str op.tag.name).toDraft = .ok op.tag := by
      change shaped (Tag.ofName op.tag.name) = _
      rw [ofName_name]
      rfl
    rw [memberDrafts, splitMembers, if_pos rfl, htag]
    exact splitMembers_memberDrafts (fun m hm => (of_mem_fieldsJson h hm).1)
      fun m hm => (of_mem_fieldsJson h hm).2.value_toDraft depth
  rw [toJson_eq, toDraft, ofDraft, hsplit]
  change shaped (ofFields op.tag op.fieldsJson) = _
  rw [ofFields_fieldsJson h]
  rfl

end ReadBack

section Batches

variable {batch : Batch}

theorem whole_batchJson (h : ∀ op ∈ batch, op.Sized) : (batchJson batch).Whole := by
  refine .arr fun j hj => ?_
  obtain ⟨op, hop, rfl⟩ := List.mem_map.mp hj
  exact whole_toJson (h op hop)

theorem mapM_ofDraft_itemDrafts (h : ∀ op ∈ batch, op.Sized) (depth : Nat) :
    (itemDrafts (batch.map toJson)).mapM (ofDraft depth) = .ok batch := by
  induction batch with
  | nil => rfl
  | cons op rest ih =>
      obtain ⟨hop, hrest⟩ := List.forall_mem_cons.mp h
      rw [List.map_cons, itemDrafts, List.mapM_cons, ofDraft_toJson hop, ih hrest]
      rfl

theorem batchOfDraft_batchJson (h : ∀ op ∈ batch, op.Sized) :
    batchOfDraft (batchJson batch).toDraft = .ok batch := by
  rw [batchJson, toDraft, batchOfDraft, mapM_ofDraft_itemDrafts h]
  rfl

theorem batchOfText_of_draft (h : ∀ op ∈ batch, op.Sized) {text : String}
    (htext : draft text = ((batchJson batch).toDraft, true)) : batchOfText text = .ok batch := by
  rw [batchOfText, htext]
  change (do let batch ← batchOfDraft _; _) = _
  rw [batchOfDraft_batchJson h]
  rfl

end Batches

/-- Operations and kinds are read back from both forms of their text, whatever ids of 64 bits and
whatever strings they hold. -/
theorem wire_reads_back {batch : Batch} {table : KindTable} (hbatch : ∀ op ∈ batch, op.Sized)
    (htable : table.Sized) :
    (batchOfText (batchJson batch).compact = .ok batch ∧
      batchOfText (batchJson batch).pretty = .ok batch) ∧
    KindTable.ofText table.toJson.compact = .ok table ∧
      KindTable.ofText table.toJson.pretty = .ok table := by
  have hwhole := whole_batchJson hbatch
  have hwhole' := KindTable.whole_toJson htable
  exact ⟨⟨batchOfText_of_draft hbatch hwhole.draft_compact,
      batchOfText_of_draft hbatch hwhole.draft_pretty⟩,
    KindTable.ofText_of_draft htable hwhole'.draft_compact,
    KindTable.ofText_of_draft htable hwhole'.draft_pretty⟩

theorem greatest_id_reads_back :
    let batch : Batch := [.insertNode 18446744073709551615 ⟨1, none, some 0⟩,
      .insertValue 9223372036854775808 "\"\\/\n\x01\x7f é"]
    let table : KindTable := ⟨0, 1, 18446744073709551615, 1, 5, 6, 7⟩
    ((∀ op ∈ batch, op.Sized) ∧ table.Sized) ∧
      (batchOfText (batchJson batch).compact = .ok batch ∧
        batchOfText (batchJson batch).pretty = .ok batch) ∧
      KindTable.ofText table.toJson.compact = .ok table ∧
        KindTable.ofText table.toJson.pretty = .ok table := by
  intro batch table
  have hbatch : ∀ op ∈ batch, op.Sized := by
    simp only [batch, List.forall_mem_cons, List.not_mem_nil, false_imp_iff, implies_true, and_true]
    exact ⟨⟨by simp [inserted?], by simp [references, Node.references]⟩,
      ⟨by simp [inserted?], by simp [references]⟩⟩
  have htable : table.Sized := by
    intro kind
    cases kind <;> simp [table, KindTable.get]
  exact ⟨⟨hbatch, htable⟩, wire_reads_back hbatch htable⟩

end LinkGraph.Operation
