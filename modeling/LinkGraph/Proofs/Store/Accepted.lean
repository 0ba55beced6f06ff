import LinkGraph.Proofs.Batch.Grounded
import LinkGraph.Proofs.Store.Sound

namespace LinkGraph.Store

variable {s s' t u : Store} {batch before after : Batch}

theorem written_append_iff :
    Written s (before ++ after) u ↔ ∃ t, Written s before t ∧ Written t after u := by
  induction before generalizing s with
  | nil =>
      constructor
      · intro h
        exact ⟨s, .nil s, h⟩
      · rintro ⟨t, ⟨⟩, h⟩
        exact h
  | cons op rest ih =>
      constructor
      · rintro (_ | ⟨admits, h⟩)
        obtain ⟨t, hrest, hafter⟩ := ih.mp h
        exact ⟨t, .cons admits hrest, hafter⟩
      · rintro ⟨t, _ | ⟨admits, hrest⟩, hafter⟩
        exact .cons admits (ih.mpr ⟨t, hrest, hafter⟩)

namespace Written

theorem hasLink_iff (h : Written s batch s') (id : LinkId) :
    s'.hasLink id = true ↔ s.hasLink id = true ∨ id ∈ batch.inserted := by
  rw [Store.hasLink_iff, Store.hasLink_iff, Batch.mem_inserted]
  simp only [h.nodes, exists_or]

theorem nodup_inserted (h : Written s batch s') : batch.inserted.Nodup := by
  induction h with
  | nil => exact List.nodup_nil
  | @cons s s' op batch admits rest ih =>
      rw [Batch.inserted_cons]
      cases op with
      | insertValue target value => exact ih
      | insertNode id node =>
          refine List.nodup_cons.mpr ⟨fun hid => ?_, ih⟩
          have hagain := (rest.inserted_fresh hid).1
          simp [write] at hagain

theorem grounded (h : Written s batch s') : batch.Grounded fun id => s.hasLink id = true := by
  intro before op after heq id hid
  rw [heq] at h
  obtain ⟨t, hbefore, _ | ⟨admits, -⟩⟩ := written_append_iff.mp h
  exact (hbefore.hasLink_iff id).mp (admits.1 id hid)

theorem checkOrder (h : Written s batch s') : batch.checkOrder = .ok () := by
  refine h.grounded.checkOrder h.nodup_inserted fun id hid => ?_
  rw [(h.inserted_fresh hid).1]
  exact Bool.false_ne_true

end Written

/-- The order of a batch is checked for the sake of the message: what is out of order could not be
written either. -/
theorem apply_eq_ok_iff_written {backend : Backend} :
    s.apply backend batch = .ok s' ↔ Written s batch s' := by
  rw [apply_eq_ok_iff]
  exact and_iff_right_of_imp Written.checkOrder

end LinkGraph.Store
