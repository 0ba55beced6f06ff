import LinkGraph.Proofs.Conversion.Course
import LinkGraph.Proofs.Plan.Outcome
import LinkGraph.Proofs.Store.Calls

namespace LinkGraph

namespace Store

def documentAt (backend : Backend) (s : Store) (trigger : LinkId) (side : End) : Option Json :=
  match s.fetch backend trigger side with
  | .ok found => found.bind (·.value)
  | .error _ => none

def configurationAt (backend : Backend) (s : Store) (trigger : LinkId) :
    Option Conversion.Configuration :=
  (s.documentAt backend trigger .source).bind fun j => (Conversion.Configuration.ofJson j).toOption

def schemaAt (backend : Backend) (s : Store) (trigger : LinkId) : Option Schema :=
  (s.documentAt backend trigger .dest).map Schema.ofJson

def kindsIn (s : Store) (scope : String) : Except StoreError KindTable :=
  KindTable.ofLookup fun kind => Memory.resolve s scope kind.name

def spend (s : Store) (count : Nat) : List LinkId × Store :=
  if count = 0 then ([], s) else s.allocate count

theorem spend_of_length {s : Store} {count : Nat} (h : (s.spend count).1.length = count) :
    s.spend count = (List.range' s.nextId count, { s with nextId := s.nextId + count }) := by
  rw [spend] at h ⊢
  split at h
  · next hcount =>
      rw [if_pos hcount, hcount]
      rfl
  · next hcount =>
      rw [if_neg hcount, allocate, idsAhead_of_length h]
      exact congrArg (fun n => (List.range' s.nextId count, { s with nextId := n }))
        (nextId_of_length hcount h)

theorem room_of_spend {s : Store} {count : Nat} (hcount : count ≠ 0)
    (h : (s.spend count).1.length = count) : s.HasRoom count := by
  rw [spend, if_neg hcount] at h
  exact room_of_length hcount h

theorem spend_of_room {s : Store} {count : Nat} (h : s.HasRoom count) :
    s.spend count = (List.range' s.nextId count, { s with nextId := s.nextId + count }) := by
  refine spend_of_length ?_
  rw [spend]
  split
  · next hcount => exact hcount.symm
  · rw [allocate, idsAhead_of_room h, List.length_range']

end Store

namespace Access

variable {σ : Type}

theorem run_ofView (f : σ → Except StoreError α) (s : σ) :
    (ofView f).run s =
      match f s with
      | .ok a => .ok a s
      | .error e => .error e s := by
  cases h : f s with
  | ok _ => simp only [EStateM.run, ofView, h]
  | error _ => simp only [EStateM.run, ofView, h]

theorem run_ofChange (f : σ → Except StoreError (α × σ)) (s : σ) :
    (ofChange f).run s =
      match f s with
      | .ok (a, s') => .ok a s'
      | .error e => .error e s := by
  cases h : f s with
  | ok _ => simp only [EStateM.run, ofChange, h]
  | error _ => simp only [EStateM.run, ofChange, h]

theorem ofView_bind (f : σ → Except StoreError α) (g : α → σ → Except StoreError β) :
    (ofView f >>= fun a => ofView (g a)) = ofView fun s => f s >>= fun a => g a s := by
  funext s
  change (ofView f >>= fun a => ofView (g a)).run s = (ofView fun s => f s >>= fun a => g a s).run s
  rw [EStateM.run_bind, run_ofView, run_ofView]
  cases f s with
  | error e => rfl
  | ok a => exact run_ofView (g a) s

theorem ofView_pure (a : α) : (pure a : EStateM StoreError σ α) = ofView fun _ => .ok a := rfl

end Access

namespace Conversion

variable {backend : Store.Backend} {scope : String} {trigger : LinkId} {s s' : Store}

theorem resolveKinds_eq_ofView (backend : Store.Backend) (scope : String) :
    resolveKinds (Store.access backend) scope = Access.ofView fun s => s.kindsIn scope := by
  simp only [resolveKinds, KindTable.ofLookup, Store.access, Store.resolve_eq, Access.ofView_bind,
    Access.ofView_pure]
  rfl

theorem run_resolveKinds (backend : Store.Backend) (scope : String) (s : Store) :
    (resolveKinds (Store.access backend) scope).run s =
      match s.kindsIn scope with
      | .ok kinds => .ok kinds s
      | .error e => .error e s := by
  rw [resolveKinds_eq_ofView, Access.run_ofView]
  cases s.kindsIn scope <;> rfl

theorem run_reserveIds (backend : Store.Backend) (count : Nat) (s : Store) :
    (reserveIds (Store.access backend) count).run s = .ok (s.spend count).1 (s.spend count).2 := by
  rw [reserveIds, Store.spend]
  split
  · rfl
  · next h =>
      have hr : s.reserve backend count = .ok (s.allocate count) := by
        rw [Store.reserve_eq, Store.Memory.reserve, if_neg h]
      rw [Store.access, Access.run_ofChange, hr]

theorem run_apply (backend : Store.Backend) (batch : Batch) (s : Store) :
    ((Store.access backend).apply batch).run s =
      match s.apply backend batch with
      | .ok s' => .ok () s'
      | .error e => .error e s := by
  rw [Store.access, Access.run_ofChange]
  cases s.apply backend batch <;> rfl

theorem apply_of_refused {batch : Batch} {e : StoreError}
    (h : ((Store.access backend).apply batch).run s = .error e s') :
    s.apply backend batch = .error e ∧ s' = s := by
  rw [run_apply] at h
  cases happly : s.apply backend batch with
  | ok t => rw [happly] at h; cases h
  | error e =>
      rw [happly] at h
      cases h
      exact ⟨rfl, rfl⟩

theorem run_fetch (backend : Store.Backend) (trigger : LinkId) (side : End) (s : Store) :
    ((Store.access backend).fetch trigger side).run s =
      match s.fetch backend trigger side with
      | .ok found => .ok found s
      | .error e => .error e s := by
  rw [Store.access, Access.run_ofView]
  cases s.fetch backend trigger side <;> rfl

theorem Finds.at_store {side : End} {d : Found}
    (h : Finds (Store.access backend) trigger side s d s') :
    s' = s ∧ s.documentAt backend trigger side = some d.document := by
  obtain ⟨h, -⟩ := h
  rw [run_fetch] at h
  rw [Store.documentAt]
  cases hf : s.fetch backend trigger side with
  | error e => rw [hf] at h; cases h
  | ok found =>
      rw [hf] at h
      cases h
      exact ⟨rfl, rfl⟩

theorem Misses.at_store {side : End} {e : Error}
    (h : Misses (Store.access backend) trigger side s e s') :
    s' = s ∧ ((∃ cause, e = .store cause) ∨ (∃ link, e = .missingEnd side link) ∨
      ∃ link, e = .missingValue side link) := by
  cases h with
  | refused h =>
      rw [run_fetch] at h
      cases hf : s.fetch backend trigger side with
      | ok found => rw [hf] at h; cases h
      | error e =>
          rw [hf] at h
          cases h
          exact ⟨rfl, .inl ⟨_, rfl⟩⟩
  | noEnd h | noValue h _ =>
      rw [run_fetch] at h
      cases hf : s.fetch backend trigger side with
      | error e => rw [hf] at h; cases h
      | ok found =>
          rw [hf] at h
          cases h
          simp

theorem Reads.at_store {i : Input} (h : Reads (Store.access backend) trigger s i s') :
    s' = s ∧ s.configurationAt backend trigger = some i.configuration ∧
      s.schemaAt backend trigger = some i.schema := by
  obtain ⟨t, hsource, hc, hdest⟩ := h
  obtain ⟨rfl, hs⟩ := hsource.at_store
  obtain ⟨rfl, hd⟩ := hdest.at_store
  refine ⟨rfl, ?_, ?_⟩
  · rw [Store.configurationAt, hs, Option.bind_some, hc]
    rfl
  · rw [Store.schemaAt, hd]
    rfl

/-- What a conversion gathers from a store. Of the store it changes the next id only. -/
theorem Gathers.at_store {m : Material} (h : Gathers (Store.access backend) scope trigger s m s') :
    s.configurationAt backend trigger = some m.configuration ∧
      s.schemaAt backend trigger = some m.schema ∧ s.kindsIn scope = .ok m.kinds ∧
      s.spend m.schema.demand = (m.ids, s') := by
  obtain ⟨t, u, hreads, hk, hi⟩ := h
  obtain ⟨rfl, hc, hd⟩ := hreads.at_store
  rw [run_resolveKinds] at hk
  cases hkinds : t.kindsIn scope with
  | error e => rw [hkinds] at hk; cases hk
  | ok kinds =>
      rw [hkinds] at hk
      obtain ⟨rfl, rfl⟩ := EStateM.Result.ok.inj hk
      rw [run_reserveIds] at hi
      obtain ⟨hids, hs'⟩ := EStateM.Result.ok.inj hi
      exact ⟨hc, hd, rfl, Prod.ext hids hs'⟩

/-- What a conversion has compiled is the preview of its schema: it was given the ids from the next
one on, as many as it had asked for. -/
theorem Gathers.previewed {m : Material} {plan : Plan}
    (h : Gathers (Store.access backend) scope trigger s m s') (hplan : m.plan = .ok plan) :
    m.ids = List.range' s.nextId m.schema.demand ∧
      s' = { s with nextId := s.nextId + m.schema.demand } ∧
      (m.schema.demand ≠ 0 → s.HasRoom m.schema.demand) ∧
      Plan.preview m.schema s.nextId ⟨m.configuration.container, m.kinds⟩ = .ok plan := by
  have hspend := h.at_store.2.2.2
  have hlength : (s.spend m.schema.demand).1.length = m.schema.demand := by
    rw [hspend]
    exact Plan.length_of_compile hplan
  obtain ⟨hids, hs'⟩ := Prod.mk.inj (hspend.symm.trans (Store.spend_of_length hlength))
  rw [Material.plan, hids] at hplan
  exact ⟨hids, hs', fun hdemand => Store.room_of_spend hdemand hlength, hplan⟩

end Conversion

end LinkGraph
