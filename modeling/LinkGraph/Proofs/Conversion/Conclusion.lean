import LinkGraph.Proofs.Conversion.Course

namespace LinkGraph.Conversion

variable {σ : Type} {access : Access σ} {scope : String} {trigger : LinkId} {s t t' : σ}

theorem Finds.unique {side : End} {d d' : Found} (h : Finds access trigger side s d t)
    (h' : Finds access trigger side s d' t') : d = d' ∧ t = t' := by
  obtain ⟨link, document⟩ := d
  obtain ⟨link', document'⟩ := d'
  cases h.1.symm.trans h'.1
  exact ⟨rfl, rfl⟩

theorem Finds.not_misses {side : End} {d : Found} {e : Error}
    (h : Finds access trigger side s d t) : ¬Misses access trigger side s e t' := by
  rintro (h' | h' | ⟨h', hv⟩)
  · cases h.1.symm.trans h'
  · cases h.1.symm.trans h'
  · have hnull := h.2
    cases h.1.symm.trans h'
    rcases hv with hv | hv
    · cases hv
    · rw [Option.some.inj hv] at hnull
      cases hnull

theorem Reads.unique {i i' : Input} (h : Reads access trigger s i t)
    (h' : Reads access trigger s i' t') : i = i' ∧ t = t' := by
  obtain ⟨source, configuration, dest⟩ := i
  obtain ⟨source', configuration', dest'⟩ := i'
  obtain ⟨u, hsource, hc, hdest⟩ := h
  obtain ⟨u', hsource', hc', hdest'⟩ := h'
  obtain ⟨rfl, rfl⟩ := hsource.unique hsource'
  obtain ⟨rfl, rfl⟩ := hdest.unique hdest'
  obtain rfl : configuration = configuration' := Except.ok.inj (hc.symm.trans hc')
  exact ⟨rfl, rfl⟩

theorem Gathers.unique {m m' : Material} (h : Gathers access scope trigger s m t)
    (h' : Gathers access scope trigger s m' t') : m = m' ∧ t = t' := by
  obtain ⟨i, kinds, ids⟩ := m
  obtain ⟨i', kinds', ids'⟩ := m'
  obtain ⟨u, v, hreads, hk, hi⟩ := h
  obtain ⟨u', v', hreads', hk', hi'⟩ := h'
  obtain ⟨rfl, rfl⟩ := hreads.unique hreads'
  obtain ⟨rfl, rfl⟩ := EStateM.Result.ok.inj (hk.symm.trans hk')
  obtain ⟨rfl, rfl⟩ := EStateM.Result.ok.inj (hi.symm.trans hi')
  exact ⟨rfl, rfl⟩

/-- How a conversion ends once all that it needs is gathered. Without a plan the store is not called
again. -/
inductive Concludes (access : Access σ) (m : Material) (s : σ) :
    Except Error Report → σ → Prop where
  | unplanned {e : PoolError} (refused : m.plan = .error e) :
      Concludes access m s (.error (.pool e)) s
  | refused {plan : Plan} {e : StoreError} {s' : σ} (planned : m.plan = .ok plan)
      (refused : (access.apply plan.batch).run s = .error e s') :
      Concludes access m s (.error (.batch e)) s'
  | committed {plan : Plan} {s' : σ} (planned : m.plan = .ok plan)
      (applied : Applies access s plan.batch s') :
      Concludes access m s
        (.ok ⟨plan.root, m.configuration.container, m.schema.demand, plan.batch.length⟩) s'

theorem Gathers.concludes {m : Material} (h : Gathers access scope trigger s m t) :
    Concludes access m t (convert access scope trigger s).1.result
      (convert access scope trigger s).2 := by
  have ⟨u, v, hreads, hk, hi⟩ := h
  have ⟨w, hsource, hc, hdest⟩ := hreads
  obtain ⟨log, hcourse, -⟩ := convert_course access scope trigger s
  generalize (convert access scope trigger s).1.result = r at hcourse
  generalize (convert access scope trigger s).2 = s' at hcourse
  cases hcourse with
  | noSource missed => exact (hsource.not_misses missed).elim
  | noConfiguration hsource' refused =>
      obtain ⟨rfl, -⟩ := hsource.unique hsource'
      cases hc.symm.trans refused
  | noDest hsource' _ missed =>
      obtain ⟨-, rfl⟩ := hsource.unique hsource'
      exact (hdest.not_misses missed).elim
  | noKinds hreads' refused =>
      obtain ⟨-, rfl⟩ := hreads.unique hreads'
      cases hk.symm.trans refused
  | noIds hreads' hk' refused =>
      obtain ⟨hinput, rfl⟩ := hreads.unique hreads'
      obtain ⟨-, rfl⟩ := EStateM.Result.ok.inj (hk.symm.trans hk')
      rw [← hinput] at refused
      cases hi.symm.trans refused
  | noPlan h' refused =>
      obtain ⟨rfl, rfl⟩ := h.unique h'
      exact .unplanned refused
  | noBatch h' planned _ refused =>
      obtain ⟨rfl, rfl⟩ := h.unique h'
      exact .refused planned refused
  | done h' planned applied =>
      obtain ⟨rfl, rfl⟩ := h.unique h'
      exact .committed planned applied

end LinkGraph.Conversion
