import LinkGraph.Proofs.Store.Transaction
import Mathlib.Data.List.Find

namespace LinkGraph.Store

/-- Two stores that a batch cannot tell apart. -/
structure Alike (batch : Batch) (s t : Store) : Prop where
  nextId : s.nextId = t.nextId
  references : ∀ op ∈ batch, ∀ id ∈ op.references, s.hasLink id = t.hasLink id
  inserted : ∀ id ∈ batch.inserted, s.hasLink id = t.hasLink id
  strings : ∀ id ∈ batch.valued, s.strings.contains id = t.strings.contains id

namespace Alike

variable {batch : Batch} {s t : Store}

theorem checkOperation (h : Alike batch s t) {op : Operation} (hop : op ∈ batch) (index : Nat)
    (before : Progress) :
    s.checkOperation index before op = t.checkOperation index before op := by
  have hfind : (op.references.find? fun id => !(before.inserted.contains id || s.hasLink id)) =
      op.references.find? fun id => !(before.inserted.contains id || t.hasLink id) := by
    refine List.find?_congr fun id hid => ?_
    rw [h.references op hop id hid]
  unfold Store.checkOperation
  rw [hfind]
  cases op with
  | insertNode id node =>
      dsimp only
      rw [h.inserted id (Batch.mem_inserted.mpr ⟨node, hop⟩), h.nextId]
  | insertValue target value =>
      dsimp only
      rw [h.strings target (List.mem_filterMap.mpr ⟨_, hop, rfl⟩)]

theorem checkOperations (h : Alike batch s t) {part : Batch} (hpart : part ⊆ batch) (index : Nat)
    (before : Progress) :
    s.checkOperations index before part = t.checkOperations index before part := by
  induction part generalizing index before with
  | nil => rfl
  | cons op rest ih =>
      obtain ⟨hop, hrest⟩ := List.cons_subset.mp hpart
      rw [Store.checkOperations, Store.checkOperations, h.checkOperation hop]
      cases t.checkOperation index before op with
      | error e => rfl
      | ok before' => exact ih hrest (index + 1) before'

theorem apply (h : Alike batch s t) (backend backend' : Backend) :
    (s.apply backend batch).map (fun _ => ()) = (t.apply backend' batch).map fun _ => () := by
  rw [apply_eq_applyTransaction, apply_eq_applyTransaction, applyTransaction_eq_applyChecked,
    applyTransaction_eq_applyChecked, applyChecked, applyChecked,
    h.checkOperations (List.Subset.refl batch)]
  cases ordered batch with
  | error e => rfl
  | ok u => cases t.checkOperations 0 {} batch <;> rfl

end Alike

end LinkGraph.Store
