import LinkGraph.Proofs.Batch.Ordered

namespace LinkGraph.Batch

variable {known known' : LinkId → Prop} {a b batch : Batch} {op : Operation}

/-- Every operation refers only to what is known, or to what an operation before it has inserted. -/
def Grounded (known : LinkId → Prop) (batch : Batch) : Prop :=
  ∀ before op after, batch = before ++ op :: after → ∀ id ∈ op.references,
    known id ∨ id ∈ inserted before

theorem grounded_nil (known : LinkId → Prop) : Grounded known [] := by
  intro before op after heq
  cases before <;> cases heq

theorem grounded_cons :
    Grounded known (op :: batch) ↔
      (∀ id ∈ op.references, known id) ∧
        Grounded (fun id => known id ∨ op.inserted? = some id) batch := by
  constructor
  · intro h
    refine ⟨fun id hid => (h [] op batch rfl id hid).resolve_right List.not_mem_nil, ?_⟩
    intro before op' after heq id hid
    have hstep := h (op :: before) op' after (congrArg (op :: ·) heq) id hid
    rw [inserted_cons, List.mem_append, Option.mem_toList] at hstep
    exact or_assoc.mpr hstep
  · rintro ⟨hop, hrest⟩ before op' after heq id hid
    cases before with
    | nil =>
        obtain ⟨rfl, -⟩ := List.cons.inj heq
        exact .inl (hop id hid)
    | cons _ before =>
        obtain ⟨rfl, htail⟩ := List.cons.inj heq
        rw [inserted_cons, List.mem_append, Option.mem_toList]
        exact or_assoc.mp (hrest before op' after htail id hid)

theorem Grounded.mono (h : Grounded known batch) (hk : ∀ id, known id → known' id) :
    Grounded known' batch := by
  intro before op after heq id hid
  exact (h before op after heq id hid).imp_left (hk id)

theorem grounded_append (ha : Grounded known a)
    (hb : Grounded (fun id => known id ∨ id ∈ inserted a) b) : Grounded known (a ++ b) := by
  induction a generalizing known with
  | nil => exact hb.mono fun id hid => hid.resolve_right List.not_mem_nil
  | cons op rest ih =>
      obtain ⟨hop, hrest⟩ := grounded_cons.mp ha
      refine grounded_cons.mpr ⟨hop, ih hrest (hb.mono fun id hid => ?_)⟩
      rw [inserted_cons, List.mem_append, Option.mem_toList] at hid
      exact or_assoc.mpr hid

theorem Grounded.known_or_inserted (h : Grounded known batch) (hop : op ∈ batch) {id : LinkId}
    (hid : id ∈ op.references) : known id ∨ id ∈ batch.inserted := by
  obtain ⟨before, after, rfl⟩ := List.append_of_mem hop
  refine (h before op after rfl id hid).imp_right fun hin => ?_
  rw [inserted_append]
  exact List.mem_append_left _ hin

/-- All that an ordered batch leaves open is whether the ids that it does not insert are known. -/
theorem Ordered.grounded (h : batch.Ordered) : batch.Grounded fun id => id ∉ batch.inserted := by
  rintro before op after rfl id hid
  refine or_iff_not_imp_left.mpr fun hin => ?_
  obtain ⟨place, hplace⟩ := exists_insertsAt (not_not.mp hin)
  have hrefers : RefersAt (before ++ op :: after) before.length id := ⟨op, by simp, hid⟩
  exact (hplace.of_append (h.back hrefers hplace)).mem_inserted

theorem Grounded.checkOrder (h : Grounded known batch) (hnodup : batch.inserted.Nodup)
    (hnew : ∀ id ∈ batch.inserted, ¬known id) : batch.checkOrder = .ok () := by
  refine checkOrder_eq_ok hnodup fun before op after heq id hid hin => ?_
  exact (h before op after heq id hid).resolve_left (hnew id hin)

end LinkGraph.Batch
