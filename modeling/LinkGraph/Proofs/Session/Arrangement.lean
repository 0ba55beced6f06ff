import LinkGraph.Proofs.Session.Acceptance

namespace LinkGraph

namespace Store

variable {s t u : Store} {batch batch' : Batch}

theorem Written.eq_of_mem_iff (h : Written s batch t) (h' : Written s batch' u)
    (hmem : ∀ op, op ∈ batch ↔ op ∈ batch') : t = u := by
  have hlinks : t.links = u.links := by
    refine Std.ExtTreeMap.ext_getElem? fun id => Option.ext fun l => ?_
    rw [h.links, h'.links, hmem]
  have hstrings : t.strings = u.strings := by
    refine Std.ExtTreeMap.ext_getElem? fun id => Option.ext fun text => ?_
    rw [h.strings, h'.strings, hmem]
  change Store.mk t.links t.strings t.documents t.names t.nextId = u
  rw [hlinks, hstrings, h.documents, h.names, h.nextId, ← h'.documents, ← h'.names, ← h'.nextId]

theorem Fits.perm (h : s.Fits batch) (hperm : batch.Perm batch') (hordered : batch'.Ordered) :
    s.Fits batch' where
  inserts := (Batch.inserted_perm hperm).nodup_iff.mp h.inserts
  refers before op after heq id hid := by
    -- Of the ids of the batch the new order takes care. All others were found stored before, at
    -- whichever place.
    have hop : op ∈ batch := by
      rw [hperm.mem_iff, heq]
      exact List.mem_append_right before List.mem_cons_self
    refine (hordered.grounded before op after heq id hid).imp_left fun hout => ?_
    rcases h.refers.known_or_inserted hop hid with ⟨hstored, -⟩ | hin
    · exact ⟨hstored, hout⟩
    · exact absurd ((Batch.inserted_perm hperm).mem_iff.mp hin) hout
  free id hid := h.free id ((Batch.inserted_perm hperm).mem_iff.mpr hid)
  values := (Batch.valued_perm hperm).nodup_iff.mp h.values
  unvalued id hid := h.unvalued id ((Batch.valued_perm hperm).mem_iff.mpr hid)

theorem Written.perm (h : Written s batch t) (hperm : batch.Perm batch')
    (hordered : batch'.Ordered) : Written s batch' t := by
  obtain ⟨u, h'⟩ := fits_iff_written.mp (h.fits.perm hperm hordered)
  rwa [h.eq_of_mem_iff h' fun op => hperm.mem_iff]

theorem Written.not_again (h : Written s batch t) (hne : batch ≠ []) : ¬Written t batch u := by
  intro hagain
  cases hagain with
  | nil => exact hne rfl
  | @cons _ _ op rest admits _ =>
      cases op with
      | insertNode id node =>
          have hstored : t.hasLink id = true :=
            Store.hasLink_iff.mpr ⟨node, (h.nodes id node).mpr (.inr List.mem_cons_self)⟩
          exact Bool.false_ne_true (admits.2.1.symm.trans hstored)
      | insertValue target value =>
          have htext : t.strings[target]? = some value :=
            (h.strings target value).mpr (.inr List.mem_cons_self)
          have hnone : t.string? target = none := string?_eq_none_iff.mpr admits.2
          cases hnone.symm.trans htext

end Store

namespace Session

theorem run_apply_eq_done_iff {session : Session} {s t : Store} {batch : Batch} :
    session.run s (.apply batch) = (.done, t) ↔ Store.Written s batch t := by
  rw [run_apply, ← Store.apply_eq_ok_iff_written]
  cases s.apply session.backend batch with
  | ok u => simp
  | error e => simp

/-- A batch may be cut anywhere. References of the first part to what the second one inserts are
refused either way: in one piece by the order, in two because nothing is stored there yet. -/
theorem batches_compose (session : Session) (s : Store) (a b : Batch) :
    (∀ u, session.run s (.apply (a ++ b)) = (.done, u) ↔
      ∃ t, session.run s (.apply a) = (.done, t) ∧ session.run t (.apply b) = (.done, u)) ∧
    (a ≠ [] → ∀ t, session.run s (.apply a) = (.done, t) →
      ∃ e, session.run t (.apply a) = (.failed e, t)) := by
  refine ⟨fun u => ?_, fun hne t h => ?_⟩
  · simp only [run_apply_eq_done_iff]
    exact Store.written_append_iff
  · have hwritten := run_apply_eq_done_iff.mp h
    rw [run_apply]
    cases happly : t.apply session.backend a with
    | error e => exact ⟨e, rfl⟩
    | ok u => exact absurd (Store.apply_eq_ok_iff_written.mp happly) (hwritten.not_again hne)

theorem cut_batch_applies :
    let session : Session := ⟨.database, true⟩
    let s := (session.run .fresh (.reserve 2)).2
    let a : Batch := [.node 9 1, .edge 8 2 1 9]
    let b : Batch := [.insertValue 8 "a"]
    let t := (session.run s (.apply a)).2
    session.run t (.apply b) = (.done, (session.run s (.apply (a ++ b))).2) ∧
      ∃ e, session.run t (.apply a) = (.failed e, t) := by
  intro session s a b t
  obtain ⟨hcut, htwice⟩ := batches_compose session s a b
  obtain ⟨t', ha, hb⟩ := (hcut (session.run s (.apply (a ++ b))).2).mp rfl
  have hfirst : session.run s (.apply a) = (.done, t) := rfl
  cases hfirst.symm.trans ha
  exact ⟨hb, htwice (by simp [a]) t hfirst⟩

/-- The operations of a batch that is taken can be rearranged as long as they stay ordered. -/
theorem rearranged_batch_applies {session : Session} {s t : Store} {batch batch' : Batch}
    (hperm : batch.Perm batch') (h : session.run s (.apply batch) = (.done, t)) :
    session.run s (.apply batch') = (.done, t) ↔ batch'.checkOrder = .ok () := by
  rw [run_apply_eq_done_iff] at h ⊢
  constructor
  · exact Store.Written.checkOrder
  · intro hcheck
    exact h.perm hperm (Batch.checkOrder_eq_ok_iff_ordered.mp hcheck)

theorem crossed_batch_applies :
    let session : Session := ⟨.memory, false⟩
    let s := (session.run .fresh (.reserve 4)).2
    let batch : Batch := [.node 11 1, .node 10 1, .edge 9 2 11 10, .insertValue 9 "a",
      .edge 8 3 9 9, .insertValue 10 "b"]
    let batch' : Batch := [.node 10 1, .insertValue 10 "b", .node 11 1, .edge 9 2 11 10,
      .edge 8 3 9 9, .insertValue 9 "a"]
    session.run s (.apply batch') = (.done, (session.run s (.apply batch)).2) := by
  intro session s batch batch'
  have hperm : batch.Perm batch' := by decide
  have hdone : session.run s (.apply batch) = (.done, (session.run s (.apply batch)).2) := rfl
  exact (rearranged_batch_applies hperm hdone).mpr rfl

end Session

end LinkGraph
