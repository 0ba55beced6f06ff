import LinkGraph.Proofs.Plan.Numbering

namespace LinkGraph.Site

/-- What drawing the ids of one entity comes to. A pool that holds too few is emptied. -/
inductive Drawn (site : Site) (parent : Option LinkId) (e : Entity) (p : Pool) :
    EStateM.Result PoolError Pool (Batch × LinkId) → Prop where
  | enough {a : Numbered} {rest : List LinkId} (entity : a.entity = e)
      (ids : p.next = a.ids ++ rest) :
      Drawn site parent e p (.ok (a.batch site parent, a.type) { p with next := rest })
  | short (h : p.remaining < e.demand) :
      Drawn site parent e p (.error (.exhausted p.reserved) { p with next := [] })

theorem entity_drawn (site : Site) (parent : Option LinkId) (e : Entity) (p : Pool) :
    Drawn site parent e p
      ((site.entity ⟨parent, e.name, e.required⟩ (site.kinds.get e.valueType)).run p) := by
  obtain ⟨name, kind, required⟩ := e
  obtain ⟨ids, reserved⟩ := p
  have short (ids : List LinkId) (n : Nat) (hn : ids.length < n)
      (hd : n ≤ Entity.demand ⟨name, kind, required⟩) :
      (⟨ids, reserved⟩ : Pool).remaining < Entity.demand ⟨name, kind, required⟩ :=
    Nat.lt_of_lt_of_le hn hd
  have hfour : 4 ≤ Entity.demand ⟨name, kind, required⟩ := Nat.le_add_right _ _
  -- One case for each id at which the pool may end.
  rcases ids with _ | ⟨type, _ | ⟨typeEdge, _ | ⟨value, _ | ⟨valueEdge, rest⟩⟩⟩⟩
  · exact .short (short _ 4 (by simp) hfour)
  · exact .short (short _ 4 (by simp) hfour)
  · exact .short (short _ 4 (by simp) hfour)
  · exact .short (short _ 4 (by simp) hfour)
  · cases required with
    | false => exact .enough (a := ⟨name, kind, type, typeEdge, value, valueEdge, none⟩) rfl rfl
    | true =>
        rcases rest with _ | ⟨mark, _ | ⟨markEdge, rest⟩⟩
        · exact .short (short _ 6 (by simp) (Nat.le_refl 6))
        · exact .short (short _ 6 (by simp) (Nat.le_refl 6))
        · exact .enough
            (a := ⟨name, kind, type, typeEdge, value, valueEdge, some (mark, markEdge)⟩) rfl rfl

/-- What building a forest comes to: its entities are numbered from the front of the pool, or the
pool held too few ids and is empty. -/
inductive Raised (site : Site) (parent : Option LinkId) (f : Forest Entity) (p : Pool) :
    EStateM.Result PoolError Pool Batch → Prop where
  | enough {g : Forest Numbered} {rest : List LinkId} (entities : g.entities = f)
      (ids : p.next = g.ids ++ rest) :
      Raised site parent f p (.ok (g.batch site parent) { p with next := rest })
  | short (h : p.remaining < f.demand) :
      Raised site parent f p (.error (.exhausted p.reserved) { p with next := [] })

theorem remaining_of_numbered {p : Pool} {g : Forest Numbered} {rest : List LinkId}
    (h : p.next = g.ids ++ rest) : p.remaining = g.entities.demand + rest.length := by
  rw [Pool.remaining, h, List.length_append, Forest.length_ids]

theorem raise_raised (site : Site) (parent : Option LinkId) (f : Forest Entity) (p : Pool) :
    Raised site parent f p ((site.raise parent f).run p) := by
  induction f generalizing parent p with
  | nil => exact .enough (g := .nil) rfl rfl
  | cons e below next ihBelow ihNext =>
      have hentity := site.entity_drawn parent e p
      rw [raise, EStateM.run_bind]
      generalize (site.entity ⟨parent, e.name, e.required⟩ (site.kinds.get e.valueType)).run p = r
        at hentity
      cases hentity with
      | short h => exact .short (by rw [Forest.demand_cons]; omega)
      | @enough a rest entity ids =>
          have hbelow := ihBelow (some a.type) { p with next := rest }
          simp only [EStateM.run_bind]
          generalize (site.raise (some a.type) below).run { p with next := rest } = r at hbelow
          have hp : p.remaining = e.demand + rest.length := by
            rw [Pool.remaining, ids, List.length_append, Numbered.length_ids, entity]
          cases hbelow with
          | short h =>
              exact .short (by rw [Forest.demand_cons, hp]; simp only [Pool.remaining] at h; omega)
          | @enough f rest' entities ids' =>
              have hnext := ihNext parent { p with next := rest' }
              dsimp only
              generalize (site.raise parent next).run { p with next := rest' } = r at hnext
              have hrest := remaining_of_numbered ids'
              cases hnext with
              | short h =>
                  rw [entities] at hrest
                  exact .short (by
                    rw [Forest.demand_cons, hp]; simp only [Pool.remaining] at h hrest; omega)
              | @enough g rest'' entities' ids'' =>
                  refine .enough (g := .cons a f g) ?_ ?_
                  · rw [← entity, ← entities, ← entities']; rfl
                  · simp only at ids' ids''
                    simp [ids, ids', ids'']

theorem build_raised (site : Site) (place : Place) (s : Schema) (p : Pool) :
    Raised site place.parent (s.outline place.name place.required) p
      ((site.build place s).run p) := by
  rw [build_eq_raise]
  exact site.raise_raised place.parent _ p

/-- Building a schema takes exactly the ids of its demand and of its mark, and inserts as many
nodes. It fails only for want of ids, and then none is left. -/
theorem build_takes_demand (site : Site) (place : Place) (s : Schema) (p : Pool) :
    if s.demand + Schema.marks place.required s ≤ p.remaining then
      ∃ batch rest, (site.build place s).run p = .ok batch rest ∧
        rest.remaining = p.remaining - (s.demand + Schema.marks place.required s) ∧
        batch.inserted.length = s.demand + Schema.marks place.required s ∧
        rest.reserved = p.reserved
    else
      ∃ rest, (site.build place s).run p = .error (.exhausted p.reserved) rest ∧
        rest.remaining = 0 ∧ rest.reserved = p.reserved := by
  have h := site.build_raised place s p
  rw [← s.demand_outline place.name place.required]
  generalize (site.build place s).run p = r at h
  cases h with
  | @enough g rest entities ids =>
      have hp := remaining_of_numbered ids
      rw [entities] at hp
      rw [if_pos (by omega)]
      refine ⟨_, _, rfl, ?_, ?_, rfl⟩
      · rw [hp, Nat.add_sub_cancel_left]; rfl
      · rw [Forest.inserted_batch, Forest.length_ids, entities]
  | short h =>
      rw [if_neg (by omega)]
      exact ⟨_, rfl, rfl, rfl⟩

end LinkGraph.Site
