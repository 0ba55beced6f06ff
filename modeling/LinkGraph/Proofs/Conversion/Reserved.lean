import LinkGraph.Proofs.Conversion.Container
import LinkGraph.Proofs.Conversion.ReadBack

namespace LinkGraph

theorem Faults.within_ids {σ : Type} (access : Access σ) (ids : List LinkId) :
    Faults.within { ids := some ids } access =
      access.answering fun count => (fun _ => ids) <$> access.reserve count := by
  rw [within, Access.answering]
  congr 1
  funext anchor side
  cases side <;> rfl

namespace Conversion

inductive Spends (s : Store) (schema : Schema) (site : Site) (ids : List LinkId) :
    Except Error Report → Store → Prop where
  | exhausted (h : ids.length < schema.demand) :
      Spends s schema site ids (.error (.pool (.exhausted ids.length))) s
  | undrained (h : schema.demand < ids.length) :
      Spends s schema site ids
        (.error (.pool (.undrained ids.length (ids.length - schema.demand)))) s
  | refused {f : Forest Numbered} {e : StoreError} (entities : f.entities = schema.skeleton)
      (drawn : f.ids = ids.reverse) (refused : ¬∃ s', Store.Written s (f.batch site none) s') :
      Spends s schema site ids (.error (.batch e)) s
  | committed {f : Forest Numbered} {s' : Store} (entities : f.entities = schema.skeleton)
      (drawn : f.ids = ids.reverse) (written : Store.Written s (f.batch site none) s') :
      Spends s schema site ids
        (.ok ⟨f.nodes.head?, site.container, schema.demand, (f.batch site none).length⟩) s'

variable {session : Session} {s t : Store} {trigger : LinkId} {schema : Schema}
  {configuration : Configuration} {reserve : Nat → EStateM StoreError Store (List LinkId)}
  {ids : List LinkId} {next : LinkId}

theorem Gathers.spends {scope : String} {m : Material}
    (h : Gathers (session.access.answering reserve) scope trigger s m t) :
    Spends t m.schema ⟨m.configuration.container, m.kinds⟩ m.ids
      (convert (session.access.answering reserve) scope trigger s).1.result
      (convert (session.access.answering reserve) scope trigger s).2 := by
  have hplan : Plan.Compiled m.schema m.ids ⟨m.configuration.container, m.kinds⟩ m.plan :=
    Plan.compile_compiled _ _ _
  have hconcludes := h.concludes
  generalize (convert (session.access.answering reserve) scope trigger s).1.result = result
    at hconcludes ⊢
  generalize (convert (session.access.answering reserve) scope trigger s).2 = s' at hconcludes ⊢
  cases hconcludes with
  | unplanned refused =>
      rw [refused] at hplan
      cases hplan with
      | exhausted h => exact .exhausted h
      | undrained h => exact .undrained h
  | refused planned refused =>
      obtain ⟨happly, hstore⟩ := apply_of_refused refused
      rw [planned] at hplan
      cases hplan with
      | done entities drawn =>
          rw [hstore]
          refine .refused entities drawn fun ⟨u, hwritten⟩ => ?_
          cases happly.symm.trans (Store.apply_eq_ok_iff_written.mpr hwritten)
  | committed planned applied =>
      rw [planned] at hplan
      cases hplan with
      | done entities drawn => exact .committed entities drawn applied.at_store

/-- Whatever a reservation answers, a conversion reaches its batch only with as many ids as the
schema demands, and the batch is applied only if they are distinct, free and below the next id. -/
theorem given_ids_settle (hs : session.Reachable s)
    (hschema : s.schemaAt session.backend trigger = some schema) (hdemand : 0 < schema.demand)
    (hconfiguration : s.configurationAt session.backend trigger = some configuration)
    (hcontainer : s.hasLink configuration.container = true)
    (hreserve : (reserve schema.demand).run s = .ok ids { s with nextId := next }) :
    let access := session.access.answering reserve
    let result := (convert access coreScope trigger s).1.result
    let s' := (convert access coreScope trigger s).2
    if ids.length < schema.demand then
      result = .error (.pool (.exhausted ids.length)) ∧ s' = { s with nextId := next }
    else if schema.demand < ids.length then
      result = .error (.pool (.undrained ids.length (ids.length - schema.demand))) ∧
        s' = { s with nextId := next }
    else if ids.Nodup ∧ ∀ id ∈ ids, s.hasLink id = false ∧ id < next then
      result = .ok ⟨ids.getLast?, configuration.container, schema.demand, 3 * schema.demand / 2⟩ ∧
        ∀ id, s'.hasLink id = true ↔ s.hasLink id = true ∨ id ∈ ids
    else
      (∃ e, result = .error (.batch e)) ∧ s' = { s with nextId := next } := by
  intro access result s'
  obtain ⟨j, hd, rfl⟩ := Option.map_eq_some_iff.mp hschema
  have hk : s.kindsIn coreScope = .ok .core := Store.kindsIn_core hs.closed
  have hi : (reserveIds access (Schema.ofJson j).demand).run s =
      .ok ids { s with nextId := next } := by
    rw [reserveIds, if_neg (Nat.ne_of_gt hdemand)]
    exact hreserve
  obtain ⟨m, hgathers, rfl, hm, hmkinds, rfl⟩ :=
    exists_gathers reserve hconfiguration hd (isNull_of_demand hdemand) hk hi
  have hspends : Spends { s with nextId := next } (Schema.ofJson j)
      ⟨m.configuration.container, .core⟩ m.ids result s' := by
    rw [← hm, ← hmkinds]
    exact hgathers.spends
  -- The reservation moves the next id only: which links are stored is asked of the store before it.
  have hwritable : ∀ f : Forest Numbered, f.ids = m.ids.reverse →
      ((∃ t, Store.Written { s with nextId := next }
          (f.batch ⟨m.configuration.container, .core⟩ none) t) ↔
        m.ids.Nodup ∧ ∀ id ∈ m.ids, s.hasLink id = false ∧ id < next) := fun f drawn =>
    Store.exists_written_batch_iff ⟨m.configuration.container, .core⟩
      (hs.closed.nextId next) (hs.kinds_stored hk) hcontainer drawn
  clear_value result s'
  cases hspends with
  | exhausted h =>
      rw [if_pos h]
      exact ⟨rfl, rfl⟩
  | undrained h =>
      rw [if_neg (Nat.lt_asymm h), if_pos h]
      exact ⟨rfl, rfl⟩
  | @refused f e entities drawn refused =>
      have hlength := Plan.length_of_drawn entities drawn
      rw [if_neg hlength.not_lt, if_neg hlength.not_gt,
        if_neg fun hids => refused ((hwritable f drawn).mpr hids)]
      exact ⟨⟨e, rfl⟩, rfl⟩
  | @committed f t entities drawn written =>
      have hlength := Plan.length_of_drawn entities drawn
      have hoperations := f.length_batch ⟨m.configuration.container, .core⟩ none
      rw [drawn, List.length_reverse, hlength] at hoperations
      rw [if_neg hlength.not_lt, if_neg hlength.not_gt,
        if_pos ((hwritable f drawn).mp ⟨s', written⟩)]
      refine ⟨?_, fun id => ?_⟩
      · dsimp only
        rw [f.head?_nodes, drawn, List.head?_reverse]
        congr 2
        omega
      · have hlinks := written.hasLink_iff id
        rw [f.inserted_batch, drawn, List.mem_reverse] at hlinks
        exact hlinks

theorem other_ids_settle :
    let faulty (ids : List LinkId) := Faults.within { ids := some ids } (Store.access .memory)
    let s := sampleStore none
    (convert (faulty (List.range' 12 10).reverse) coreScope 11 s).1.result =
        .ok ⟨some 12, 8, 10, 15⟩ ∧
      (convert (faulty (List.replicate 10 12)) coreScope 11 s).2 = { s with nextId := 22 } := by
  intro faulty s
  have hs : Session.Reachable ⟨.memory, false⟩ s := .run .fresh (.stage coreScope sampleSchema none)
  have hschema : s.schemaAt .memory 11 = some (Schema.ofJson sampleSchema) := rfl
  have hconfiguration : s.configurationAt .memory 11 = some ⟨8, 3⟩ := rfl
  let reserve (ids : List LinkId) (count : Nat) :=
    (fun _ => ids) <$> (Store.access .memory).reserve count
  have hreserve : ∀ ids, (reserve ids (Schema.ofJson sampleSchema).demand).run s =
      .ok ids { s with nextId := 22 } := fun _ => rfl
  have hfaulty : ∀ ids, faulty ids = (Store.access .memory).answering (reserve ids) :=
    Faults.within_ids (Store.access .memory)
  have settled (ids : List LinkId) :=
    given_ids_settle hs hschema (by decide) hconfiguration rfl (hreserve ids)
  constructor
  · have hreversed := settled (List.range' 12 10).reverse
    rw [if_neg (by decide), if_neg (by decide), if_pos (by decide)] at hreversed
    rw [hfaulty]
    exact hreversed.1
  · have hrepeated := settled (List.replicate 10 12)
    rw [if_neg (by decide), if_neg (by decide), if_neg (by decide)] at hrepeated
    rw [hfaulty]
    exact hrepeated.2

end Conversion

end LinkGraph
