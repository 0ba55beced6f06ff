import LinkGraph.Batch.Order

namespace LinkGraph

def Operation.valued? : Operation → Option LinkId
  | .insertNode _ _ => none
  | .insertValue target _ => some target

namespace Batch

def inserted (batch : Batch) : List LinkId := batch.filterMap Operation.inserted?

theorem inserted_append (a b : Batch) : inserted (a ++ b) = inserted a ++ inserted b :=
  List.filterMap_append

theorem inserted_cons (op : Operation) (batch : Batch) :
    inserted (op :: batch) = op.inserted?.toList ++ inserted batch := by
  cases h : op.inserted? <;> simp [inserted, h]

theorem mem_inserted {id : LinkId} {batch : Batch} :
    id ∈ inserted batch ↔ ∃ node, .insertNode id node ∈ batch := by
  simp only [inserted, List.mem_filterMap]
  constructor
  · rintro ⟨op, hop, hid⟩
    cases op with
    | insertNode id' node =>
        cases hid
        exact ⟨node, hop⟩
    | insertValue target value => cases hid
  · rintro ⟨node, hop⟩
    exact ⟨_, hop, rfl⟩

theorem inserted_perm {a b : Batch} (h : a.Perm b) : a.inserted.Perm b.inserted := h.filterMap _

def valued (batch : Batch) : List LinkId := batch.filterMap Operation.valued?

theorem valued_append (a b : Batch) : valued (a ++ b) = valued a ++ valued b :=
  List.filterMap_append

theorem valued_cons (op : Operation) (batch : Batch) :
    valued (op :: batch) = op.valued?.toList ++ valued batch := by
  cases h : op.valued? <;> simp [valued, h]

theorem valued_perm {a b : Batch} (h : a.Perm b) : a.valued.Perm b.valued := h.filterMap _

end Batch

end LinkGraph
