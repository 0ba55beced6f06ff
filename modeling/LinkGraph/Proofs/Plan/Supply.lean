import LinkGraph.Proofs.Plan.Drawing

namespace LinkGraph

variable {after after' : List LinkId}

theorem Numbered.ids_append_inj {a b : Numbered} (hentity : a.entity = b.entity)
    (hids : a.ids ++ after = b.ids ++ after') : a = b ∧ after = after' := by
  have hlength : a.ids.length = b.ids.length := by rw [a.length_ids, b.length_ids, hentity]
  obtain ⟨hfront, hafter⟩ := List.append_inj hids hlength
  refine ⟨?_, hafter⟩
  obtain ⟨name, kind, type, typeEdge, value, valueEdge, mark⟩ := a
  obtain ⟨name', kind', type', typeEdge', value', valueEdge', mark'⟩ := b
  simp only [entity, Entity.mk.injEq] at hentity
  obtain ⟨rfl, rfl, hmark⟩ := hentity
  simp only [ids, List.cons_append, List.nil_append, List.cons.injEq] at hfront
  obtain ⟨rfl, rfl, rfl, rfl, hmarks⟩ := hfront
  cases mark with
  | none =>
      cases mark' with
      | none => rfl
      | some q => cases hmark
  | some p =>
      cases mark' with
      | none => cases hmark
      | some q =>
          simp only [markIds, Option.elim_some, List.cons.injEq, and_true] at hmarks
          rw [Prod.ext hmarks.1 hmarks.2]

theorem Forest.ids_append_inj {f g : Forest Numbered} (hentities : f.entities = g.entities)
    (hids : f.ids ++ after = g.ids ++ after') : f = g ∧ after = after' := by
  induction f generalizing g after after' with
  | nil =>
      obtain rfl : g = nil := map_eq_nil_iff.mp hentities.symm
      exact ⟨rfl, hids⟩
  | cons a below next ihBelow ihNext =>
      cases g with
      | nil => cases hentities
      | cons b below' next' =>
          simp only [entities, map, cons.injEq] at hentities
          obtain ⟨hentity, hbelow, hnext⟩ := hentities
          simp only [ids_cons, List.append_assoc] at hids
          obtain ⟨rfl, htrees⟩ := Numbered.ids_append_inj hentity hids
          obtain ⟨rfl, htail⟩ := ihBelow hbelow htrees
          obtain ⟨rfl, hafter⟩ := ihNext hnext htail
          exact ⟨rfl, hafter⟩

namespace Site

variable {site : Site} {place : Place} {s : Schema} {p rest : Pool} {batch : Batch}

/-- A schema is built exactly if the pool starts with ids for its entities, which it then loses. -/
theorem build_eq_ok_iff :
    (site.build place s).run p = .ok batch rest ↔
      ∃ f : Forest Numbered, f.entities = s.outline place.name place.required ∧
        p = { rest with next := f.ids ++ rest.next } ∧ batch = f.batch site place.parent := by
  have h := site.build_raised place s p
  constructor
  · intro hbuild
    rw [hbuild] at h
    cases h with
    | @enough f ids entities drawn => exact ⟨f, entities, by rw [← drawn], rfl⟩
  · rintro ⟨f, entities, rfl, rfl⟩
    generalize (site.build place s).run _ = r at h
    cases h with
    | @enough g ids entities' drawn =>
        obtain ⟨rfl, rfl⟩ := Forest.ids_append_inj (entities.trans entities'.symm) drawn
        rfl
    | short h =>
        rw [← entities, remaining_of_numbered rfl] at h
        omega

theorem build_eq_error_iff {e : PoolError} :
    (site.build place s).run p = .error e rest ↔
      p.remaining < s.demand + Schema.marks place.required s ∧ e = .exhausted p.reserved ∧
        rest = { p with next := [] } := by
  have h := site.build_raised place s p
  rw [← s.demand_outline place.name place.required]
  generalize (site.build place s).run p = r at h
  cases h with
  | @enough f ids entities drawn =>
      have hp := remaining_of_numbered drawn
      rw [entities] at hp
      refine iff_of_false nofun fun hshort => ?_
      have := hshort.1
      omega
  | short h =>
      constructor
      · rintro ⟨⟩
        exact ⟨h, rfl, rfl⟩
      · rintro ⟨-, rfl, rfl⟩
        rfl

/-- Ids are used from the end of the pool, each of them once and in the order of the batch. The ids
before those that are used have no part in it: any others there are left as they are. -/
theorem build_uses_end (h : (site.build place s).run p = .ok batch rest) :
    p.toList = rest.toList ++ batch.inserted.reverse ∧ rest.reserved = p.reserved ∧
      ∀ (front : List LinkId) (q : Pool), q.toList = front ++ batch.inserted.reverse →
        ∃ left, (site.build place s).run q = .ok batch left ∧ left.toList = front ∧
          left.reserved = q.reserved := by
  obtain ⟨f, entities, rfl, rfl⟩ := build_eq_ok_iff.mp h
  rw [f.inserted_batch]
  refine ⟨List.reverse_append, rfl, fun front q hq => ?_⟩
  have hnext : q.next = f.ids ++ front.reverse := by
    rw [← List.reverse_reverse q.next, ← Pool.toList, hq, List.reverse_append,
      List.reverse_reverse]
  refine ⟨{ q with next := front.reverse }, ?_, front.reverse_reverse, rfl⟩
  exact build_eq_ok_iff.mpr ⟨f, entities, by rw [← hnext], rfl⟩

theorem nested_uses_end :
    let site : Site := ⟨500, .core⟩
    let s : Schema := .object none [("a", .list none (.string none)), ("b", .other)] (.ofList ["a"])
    let p : Pool := .ofList [70, 71, 1, 2, 2, 2, 5, 6, 7, 8, 9, 9]
    ∃ batch rest, (site.build (.root "x") s).run p = .ok batch rest ∧
      p.toList = rest.toList ++ batch.inserted.reverse ∧ rest.toList = [70, 71] ∧
      ∃ left, (site.build (.root "x") s).run (.ofList ([9, 8, 7] ++ batch.inserted.reverse)) =
        .ok batch left ∧ left.toList = [9, 8, 7] := by
  intro site s p
  obtain ⟨batch, rest, h, hrest⟩ : ∃ batch rest,
      (site.build (.root "x") s).run p = .ok batch rest ∧ rest.toList = [70, 71] := ⟨_, _, rfl, rfl⟩
  obtain ⟨hused, -, hfront⟩ := build_uses_end h
  obtain ⟨left, hbuild, hleft, -⟩ :=
    hfront [9, 8, 7] (.ofList ([9, 8, 7] ++ batch.inserted.reverse)) (List.reverse_reverse _)
  exact ⟨batch, rest, h, hused, hrest, left, hbuild, hleft⟩

end Site

end LinkGraph
