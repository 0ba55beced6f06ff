import LinkGraph.Proofs.Conversion.Conclusion
import LinkGraph.Proofs.Conversion.Effect
import LinkGraph.Proofs.Store.Accepted

namespace LinkGraph

def Access.answering {σ : Type} (access : Access σ)
    (reserve : Nat → EStateM StoreError σ (List LinkId)) : Access σ := { access with reserve }

namespace Conversion

variable {backend : Store.Backend} {scope : String} {trigger : LinkId} {s s' : Store}

theorem finds_of_documentAt {side : End} {j : Json}
    (hd : s.documentAt backend trigger side = some j) (hj : j.isNull = false) :
    ∃ d : Found, d.document = j ∧ Finds (Store.access backend) trigger side s d s := by
  rw [Store.documentAt] at hd
  cases hfetch : s.fetch backend trigger side with
  | error e => rw [hfetch] at hd; cases hd
  | ok found =>
      rw [hfetch] at hd
      obtain ⟨⟨link, value⟩, rfl, hvalue⟩ := Option.bind_eq_some_iff.mp hd
      obtain rfl : value = some j := hvalue
      exact ⟨⟨link, j⟩, rfl, by rw [run_fetch, hfetch], hj⟩

theorem isNull_of_ofJson {j : Json} {c : Configuration} (h : Configuration.ofJson j = .ok c) :
    j.isNull = false := by
  cases j with
  | null => cases h
  | bool | num | str | arr | obj => rfl

theorem isNull_of_demand {j : Json} (h : 0 < (Schema.ofJson j).demand) : j.isNull = false := by
  cases j with
  | null => cases h
  | bool | num | str | arr | obj => rfl

/-- How a conversion ends once its documents and kinds are found: as its batch does, if there are
ids for it. -/
inductive Settled (backend : Store.Backend) (s : Store) (schema : Schema) (site : Site) :
    Except Error Report → Store → Prop where
  | committed {plan : Plan} {s' : Store} (room : schema.demand ≠ 0 → s.HasRoom schema.demand)
      (planned : Plan.preview schema s.nextId site = .ok plan)
      (applied : { s with nextId := s.nextId + schema.demand }.apply backend plan.batch = .ok s') :
      Settled backend s schema site
        (.ok ⟨plan.root, site.container, schema.demand, plan.batch.length⟩) s'
  | refused {plan : Plan} {e : StoreError} (room : schema.demand ≠ 0 → s.HasRoom schema.demand)
      (planned : Plan.preview schema s.nextId site = .ok plan)
      (refused :
        { s with nextId := s.nextId + schema.demand }.apply backend plan.batch = .error e) :
      Settled backend s schema site (.error (.batch e))
        { s with nextId := s.nextId + schema.demand }
  | unplanned {e : PoolError} (short : ¬s.HasRoom schema.demand) :
      Settled backend s schema site (.error (.pool e)) (s.advance schema.demand)

theorem configurationAt_eq_some {c : Configuration}
    (h : s.configurationAt backend trigger = some c) :
    ∃ j, s.documentAt backend trigger .source = some j ∧ Configuration.ofJson j = .ok c := by
  obtain ⟨j, hj, hread⟩ := Option.bind_eq_some_iff.mp h
  refine ⟨j, hj, ?_⟩
  cases hc : Configuration.ofJson j with
  | error e => rw [hc] at hread; cases hread
  | ok c' =>
      rw [hc] at hread
      obtain rfl := Option.some.inj hread
      rfl

/-- Only what a reservation answers is left open once documents and kinds are found. -/
theorem exists_gathers (reserve : Nat → EStateM StoreError Store (List LinkId))
    {c : Configuration} {j : Json} {kinds : KindTable} {ids : List LinkId}
    (hc : s.configurationAt backend trigger = some c)
    (hd : s.documentAt backend trigger .dest = some j) (hj : j.isNull = false)
    (hk : s.kindsIn scope = .ok kinds)
    (hi : (reserveIds ((Store.access backend).answering reserve) (Schema.ofJson j).demand).run s =
      .ok ids s') :
    ∃ m : Material, Gathers ((Store.access backend).answering reserve) scope trigger s m s' ∧
      m.configuration = c ∧ m.schema = Schema.ofJson j ∧ m.kinds = kinds ∧ m.ids = ids := by
  obtain ⟨source, hsource, hread⟩ := configurationAt_eq_some hc
  obtain ⟨d, rfl, hfinds⟩ := finds_of_documentAt hsource (isNull_of_ofJson hread)
  obtain ⟨d', rfl, hfinds'⟩ := finds_of_documentAt hd hj
  have hresolve : (resolveKinds (Store.access backend) scope).run s = .ok kinds s := by
    rw [run_resolveKinds, hk]
  exact ⟨⟨⟨d, c, d'⟩, kinds, ids⟩, ⟨s, s, ⟨s, hfinds, hread, hfinds'⟩, hresolve, hi⟩,
    rfl, rfl, rfl, rfl⟩

theorem convert_settled {c : Configuration} {j : Json} {kinds : KindTable}
    (hc : s.configurationAt backend trigger = some c)
    (hd : s.documentAt backend trigger .dest = some j) (hj : j.isNull = false)
    (hk : s.kindsIn scope = .ok kinds) :
    Settled backend s (Schema.ofJson j) ⟨c.container, kinds⟩
      (convert (Store.access backend) scope trigger s).1.result
      (convert (Store.access backend) scope trigger s).2 := by
  obtain ⟨m, hgathers, rfl, hschema, rfl, -⟩ :=
    exists_gathers (Store.access backend).reserve hc hd hj hk (run_reserveIds backend _ s)
  change Gathers (Store.access backend) scope trigger s m _ at hgathers
  have hconcludes := hgathers.concludes
  generalize (convert (Store.access backend) scope trigger s).1.result = r at hconcludes ⊢
  generalize (convert (Store.access backend) scope trigger s).2 = t at hconcludes ⊢
  rw [← hschema]
  cases hconcludes with
  | unplanned refused =>
      obtain ⟨hroom, hs⟩ := hgathers.short_of_unplanned refused
      rw [hs]
      exact .unplanned hroom
  | refused planned refused =>
      obtain ⟨-, hs, hroom, hpreview⟩ := hgathers.previewed planned
      obtain ⟨happly, rfl⟩ := apply_of_refused refused
      rw [hs] at happly ⊢
      exact .refused hroom hpreview happly
  | committed planned applied =>
      obtain ⟨-, hs, hroom, hpreview⟩ := hgathers.previewed planned
      rw [hs] at applied
      exact .committed hroom hpreview (Store.apply_eq_ok_iff_written.mpr applied.at_store)

end Conversion

end LinkGraph
