import LinkGraph.Proofs.Conversion.Agreement

namespace LinkGraph

variable {σ ε α β : Type}

def ending : EStateM.Result ε σ α → σ
  | .ok _ s => s
  | .error _ s => s

/-- Whichever way a run ends, it leads from its first state to a related one. -/
def Leads (R : σ → σ → Prop) (x : EStateM ε σ α) : Prop := ∀ s, R s (ending (x.run s))

structure Access.Prepares (access : Access σ) (R : σ → σ → Prop) : Prop where
  refl : ∀ s, R s s
  trans : ∀ ⦃s t u⦄, R s t → R t u → R s u
  reserve : ∀ count, Leads R (access.reserve count)
  resolve : ∀ scope name, Leads R (access.resolve scope name)
  fetch : ∀ anchor side, Leads R (access.fetch anchor side)

structure Access.Moves (access : Access σ) (R : σ → σ → Prop) : Prop where
  refl : ∀ s, R s s
  trans : ∀ ⦃s t u⦄, R s t → R t u → R s u
  reserve : ∀ count, Leads R (access.reserve count)
  resolve : ∀ scope name, Leads R (access.resolve scope name)
  apply : ∀ batch, Leads R (access.apply batch)
  fetch : ∀ anchor side, Leads R (access.fetch anchor side)
  insertLink : ∀ node, Leads R (access.insertLink node)
  setDocument : ∀ id value, Leads R (access.setDocument id value)

theorem Access.Moves.prepares {access : Access σ} {R : σ → σ → Prop} (h : access.Moves R) :
    access.Prepares R := { h with }

namespace Leads

variable {R : σ → σ → Prop}

theorem of_ok {x : EStateM ε σ α} {s s' : σ} {a : α} (h : Leads R x) (hx : x.run s = .ok a s') :
    R s s' := by
  have hs := h s
  rwa [hx] at hs

theorem of_error {x : EStateM ε σ α} {s s' : σ} {e : ε} (h : Leads R x)
    (hx : x.run s = .error e s') : R s s' := by
  have hs := h s
  rwa [hx] at hs

theorem pure (refl : ∀ s, R s s) (a : α) : Leads R (Pure.pure a : EStateM ε σ α) := refl

theorem bind (trans : ∀ ⦃s t u⦄, R s t → R t u → R s u) {x : EStateM ε σ α}
    {f : α → EStateM ε σ β} (hx : Leads R x) (hf : ∀ a, Leads R (f a)) : Leads R (x >>= f) := by
  intro s
  have h := hx s
  rw [EStateM.run_bind]
  cases hrun : x.run s with
  | error e t =>
      rw [hrun] at h
      exact h
  | ok a t =>
      rw [hrun] at h
      exact trans h (hf a t)

theorem ofView (refl : ∀ s, R s s) (f : σ → Except StoreError α) : Leads R (Access.ofView f) := by
  intro s
  rw [EStateM.run, Access.ofView]
  cases f s <;> exact refl s

theorem ofChange (refl : ∀ s, R s s) {f : σ → Except StoreError (α × σ)}
    (h : ∀ s a t, f s = .ok (a, t) → R s t) : Leads R (Access.ofChange f) := by
  intro s
  rw [EStateM.run, Access.ofChange]
  cases hf : f s with
  | error e => exact refl s
  | ok p => exact h s p.1 p.2 hf

end Leads

namespace Conversion

variable {access : Access σ} {R : σ → σ → Prop}

theorem leads_resolveKinds (h : access.Prepares R) (scope : String) :
    Leads R (resolveKinds access scope) := by
  iterate 7 refine Leads.bind h.trans (h.resolve _ _) fun _ => ?_
  exact Leads.pure h.refl _

/-- Staging sets documents only on links that it has inserted itself. -/
theorem leads_stage_attaching (refl : ∀ s, R s s) (trans : ∀ ⦃s t u⦄, R s t → R t u → R s u)
    (resolve : ∀ scope name, Leads R (access.resolve scope name))
    (insertLink : ∀ node, Leads R (access.insertLink node))
    (attaching : ∀ type value, Leads R (attach access type value)) :
    ∀ scope schema container, Leads R (stage access scope schema container) :=
  stage_related (b := access) (P := fun x _ => Leads R x) (Leads.pure refl) (Leads.bind trans)
    resolve insertLink attaching

theorem leads_stage (h : access.Moves R) :
    ∀ scope schema container, Leads R (stage access scope schema container) := by
  refine leads_stage_attaching h.refl h.trans h.resolve h.insertLink fun type value => ?_
  refine Leads.bind h.trans (h.insertLink _) fun id => ?_
  exact Leads.bind h.trans (h.setDocument id value) fun _ => Leads.pure h.refl id

theorem leads_reserveIds (h : access.Prepares R) (count : Nat) :
    Leads R (reserveIds access count) := by
  by_cases hcount : count = 0
  · rw [reserveIds, if_pos hcount]
    exact Leads.pure h.refl _
  · rw [reserveIds, if_neg hcount]
    exact h.reserve count

theorem Finds.moved {trigger : LinkId} {side : End} {s s' : σ} {d : Found} (h : access.Prepares R)
    (hf : Finds access trigger side s d s') : R s s' := (h.fetch trigger side).of_ok hf.1

theorem Misses.moved {trigger : LinkId} {side : End} {s s' : σ} {e : Error} (h : access.Prepares R)
    (hm : Misses access trigger side s e s') : R s s' := by
  cases hm with
  | refused hf => exact (h.fetch trigger side).of_error hf
  | noEnd hf | noValue hf _ => exact (h.fetch trigger side).of_ok hf

theorem Reads.moved {trigger : LinkId} {s s' : σ} {i : Input} (h : access.Prepares R)
    (hr : Reads access trigger s i s') : R s s' := by
  obtain ⟨t, hsource, -, hdest⟩ := hr
  exact h.trans (hsource.moved h) (hdest.moved h)

theorem Gathers.moved {scope : String} {trigger : LinkId} {s s' : σ} {m : Material}
    (h : access.Prepares R) (hg : Gathers access scope trigger s m s') : R s s' := by
  obtain ⟨t, u, hreads, hk, hi⟩ := hg
  have hu := h.trans (hreads.moved h) ((leads_resolveKinds h scope).of_ok hk)
  exact h.trans hu ((leads_reserveIds h _).of_ok hi)

theorem Applies.moved {s s' : σ} {batch : Batch} (refl : ∀ s, R s s)
    (h : R s (ending ((access.apply batch).run s))) (ha : Applies access s batch s') : R s s' := by
  rw [Applies] at ha
  split at ha
  · exact ha ▸ refl s
  · rwa [ha] at h

theorem Course.moved_of_error {scope : String} {trigger : LinkId} {s s' : σ} {e : Error}
    {log : List Log.Entry} (h : access.Prepares R)
    (hrefused : ∀ m plan t u cause, Gathers access scope trigger s m t → m.plan = .ok plan →
      (access.apply plan.batch).run t = .error cause u → R t u)
    (hc : Course access scope trigger s (.error e) log s') : R s s' := by
  cases hc with
  | noSource hm => exact hm.moved h
  | noConfiguration hf _ => exact hf.moved h
  | noDest hf _ hm => exact h.trans (hf.moved h) (hm.moved h)
  | noKinds hr hk => exact h.trans (hr.moved h) ((leads_resolveKinds h scope).of_error hk)
  | noIds hr hk hi =>
      have hu := h.trans (hr.moved h) ((leads_resolveKinds h scope).of_ok hk)
      exact h.trans hu ((leads_reserveIds h _).of_error hi)
  | noPlan hg _ => exact hg.moved h
  | noBatch hg hp _ ha => exact h.trans (hg.moved h) (hrefused _ _ _ _ _ hg hp ha)

theorem Course.moved {scope : String} {trigger : LinkId} {s s' : σ} {r : Except Error Report}
    {log : List Log.Entry} (h : access.Prepares R)
    (happly : ∀ m plan t, Gathers access scope trigger s m t → m.plan = .ok plan →
      R t (ending ((access.apply plan.batch).run t)))
    (hc : Course access scope trigger s r log s') : R s s' := by
  cases r with
  | error e =>
      refine hc.moved_of_error h fun m plan t u cause hg hp ha => ?_
      have hrefused := happly m plan t hg hp
      rwa [ha] at hrefused
  | ok report =>
      cases hc with
      | done hg hp ha => exact h.trans (hg.moved h) (ha.moved h.refl (happly _ _ _ hg hp))

theorem moved_convert (h : access.Prepares R) (scope : String) (trigger : LinkId) (s : σ)
    (happly : ∀ m plan t, Gathers access scope trigger s m t → m.plan = .ok plan →
      R t (ending ((access.apply plan.batch).run t))) :
    R s (convert access scope trigger s).2 := by
  obtain ⟨log, hcourse, -⟩ := convert_course access scope trigger s
  exact hcourse.moved h happly

end Conversion

end LinkGraph
