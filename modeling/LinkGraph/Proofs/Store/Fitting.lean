import LinkGraph.Proofs.Store.Accepted

namespace LinkGraph.Store

/-- A batch that is in order for a store, whatever the order in which it is checked: it inserts each
of its links once, on ids that were handed out and are free; it refers to what is stored already or
inserted before; and each text it attaches is the only one of its link. -/
structure Fits (s : Store) (batch : Batch) : Prop where
  inserts : batch.inserted.Nodup
  refers : batch.Grounded fun id => s.hasLink id = true ∧ id ∉ batch.inserted
  free : ∀ id ∈ batch.inserted, id < s.nextId ∧ s.hasLink id = false
  values : batch.valued.Nodup
  unvalued : ∀ target ∈ batch.valued, s.string? target = none

variable {s s' : Store} {batch : Batch} {op : Operation}

theorem string?_eq_none_iff {id : LinkId} :
    s.string? id = none ↔ s.strings.contains id = false := by
  rw [string?, Std.ExtTreeMap.contains_eq_isSome_getElem?, Option.isSome_eq_false_iff,
    Option.isNone_iff_eq_none]

theorem string?_write_eq_none_iff {id : LinkId} :
    (s.write op).string? id = none ↔ s.string? id = none ∧ op.valued? ≠ some id := by
  cases op with
  | insertNode x node => simp [write, putLink, string?, Operation.valued?]
  | insertValue target value =>
      by_cases hid : target = id
      · simp [write, putString, string?, Operation.valued?, hid]
      · simp [write, putString, string?, Operation.valued?, hid, Std.ExtTreeMap.getElem?_insert]

theorem Admits.unvalued (h : s.Admits op) : ∀ target ∈ op.valued?, s.string? target = none := by
  cases op with
  | insertNode x node => rintro _ ⟨⟩
  | insertValue target value =>
      rintro _ ⟨⟩
      exact string?_eq_none_iff.mpr h.2

theorem Written.unvalued (h : Written s batch s') :
    batch.valued.Nodup ∧ ∀ target ∈ batch.valued, s.string? target = none := by
  induction h with
  | nil => exact ⟨List.nodup_nil, fun _ h => nomatch h⟩
  | @cons s s' op batch admits _ ih =>
      obtain ⟨hnodup, hrest⟩ := ih
      have hop := admits.unvalued
      have hold : ∀ target ∈ batch.valued, s.string? target = none ∧ op.valued? ≠ some target :=
        fun target hmem => string?_write_eq_none_iff.mp (hrest target hmem)
      rw [Batch.valued_cons]
      cases hv : op.valued? with
      | none => exact ⟨hnodup, fun target hmem => (hold target hmem).1⟩
      | some x =>
          rw [hv] at hop hold
          refine ⟨List.nodup_cons.mpr ⟨fun hmem => (hold x hmem).2 rfl, hnodup⟩, ?_⟩
          intro target hmem
          rcases List.mem_cons.mp hmem with rfl | hmem
          · exact hop target rfl
          · exact (hold target hmem).1

theorem Written.fits (h : Written s batch s') : s.Fits batch where
  inserts := h.nodup_inserted
  refers before op after heq id hid := by
    by_cases hin : id ∈ batch.inserted
    · have hnew : s.hasLink id = false := (h.inserted_fresh hin).1
      refine .inr ((h.grounded before op after heq id hid).resolve_left fun hstored => ?_)
      exact Bool.false_ne_true (hnew.symm.trans hstored)
    · exact (h.grounded before op after heq id hid).imp_left fun hstored => ⟨hstored, hin⟩
  free id hid := (h.inserted_fresh hid).symm
  values := h.unvalued.1
  unvalued := h.unvalued.2

theorem exists_written (hrefers : batch.Grounded fun id => s.hasLink id = true)
    (hinserts : batch.inserted.Nodup)
    (hfree : ∀ id ∈ batch.inserted, id < s.nextId ∧ s.hasLink id = false)
    (hvalues : batch.valued.Nodup) (hunvalued : ∀ target ∈ batch.valued, s.string? target = none) :
    ∃ s', Written s batch s' := by
  induction batch generalizing s with
  | nil => exact ⟨s, .nil s⟩
  | cons op rest ih =>
      rw [Batch.inserted_cons] at hinserts hfree
      rw [Batch.valued_cons] at hvalues hunvalued
      obtain ⟨hop, hrest⟩ := Batch.grounded_cons.mp hrefers
      have admits : s.Admits op := by
        refine ⟨hop, ?_⟩
        cases op with
        | insertNode id node => exact (hfree id List.mem_cons_self).symm
        | insertValue target value =>
            exact string?_eq_none_iff.mp (hunvalued target List.mem_cons_self)
      -- The write spoils nothing that is asked of the rest: ids and texts come once in the batch.
      have hfree' : ∀ id ∈ Batch.inserted rest,
          id < (s.write op).nextId ∧ (s.write op).hasLink id = false := by
        intro id hid
        obtain ⟨hlt, hlink⟩ := hfree id (List.mem_append_right _ hid)
        rw [nextId_write, Bool.eq_false_iff, Ne, hasLink_write_iff, hlink]
        refine ⟨hlt, ?_⟩
        rintro (h | h)
        · cases h
        · exact (List.nodup_append.mp hinserts).2.2 id (Option.mem_toList.mpr h) id hid rfl
      have hunvalued' : ∀ target ∈ Batch.valued rest, (s.write op).string? target = none := by
        intro target hmem
        refine string?_write_eq_none_iff.mpr ⟨hunvalued target (List.mem_append_right _ hmem), ?_⟩
        intro h
        exact (List.nodup_append.mp hvalues).2.2 target (Option.mem_toList.mpr h) target hmem rfl
      obtain ⟨s', hw⟩ := ih (hrest.mono fun id => hasLink_write_iff.mpr)
        (List.nodup_append.mp hinserts).2.1 hfree' (List.nodup_append.mp hvalues).2.1 hunvalued'
      exact ⟨s', .cons admits hw⟩

theorem fits_iff_written : s.Fits batch ↔ ∃ s', Written s batch s' := by
  constructor
  · intro h
    exact exists_written (h.refers.mono fun _ => And.left) h.inserts h.free h.values h.unvalued
  · rintro ⟨s', h⟩
    exact h.fits

end LinkGraph.Store
