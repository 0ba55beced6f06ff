import LinkGraph.Proofs.Batch.Inserted
import Mathlib.Data.List.Pairwise

namespace LinkGraph.Batch

def InsertsAt (batch : Batch) (place : Nat) (id : LinkId) : Prop :=
  ∃ op, batch[place]? = some op ∧ op.inserted? = some id

def RefersAt (batch : Batch) (place : Nat) (id : LinkId) : Prop :=
  ∃ op, batch[place]? = some op ∧ id ∈ op.references

def InsertsOnce (batch : Batch) : Prop :=
  ∀ {id i j}, batch.InsertsAt i id → batch.InsertsAt j id → i = j

def InsertsAgain (batch : Batch) (place : Nat) : Prop :=
  ∃ id first, first < place ∧ batch.InsertsAt first id ∧ batch.InsertsAt place id

def RefersAhead (batch : Batch) (place : Nat) : Prop :=
  ∃ id, batch.RefersAt place id ∧ id ∈ batch.inserted ∧
    ∀ earlier < place, ¬batch.InsertsAt earlier id

/-- Ids are inserted once, and what refers to one of them comes after the operation that inserts
it. -/
structure Ordered (batch : Batch) : Prop where
  once : batch.InsertsOnce
  back : ∀ {id i j}, batch.RefersAt i id → batch.InsertsAt j id → j < i

structure Repeats (batch : Batch) (index : Nat) (id : LinkId) (first : Nat) : Prop where
  lt : first < index
  again : batch.InsertsAt index id
  inserts : batch.InsertsAt first id
  least : ∀ place, batch.InsertsAt place id → first ≤ place

structure Anticipates (batch : Batch) (index : Nat) (id : LinkId) (insertedAt : Nat) : Prop where
  refers : batch.RefersAt index id
  inserts : batch.InsertsAt insertedAt id
  le : index ≤ insertedAt

variable {batch before rest : Batch} {op : Operation} {id : LinkId} {place : Nat}

namespace InsertsAt

theorem lt_length (h : batch.InsertsAt place id) : place < batch.length := by
  obtain ⟨op, hop, -⟩ := h
  exact (List.getElem?_eq_some_iff.mp hop).1

theorem append (h : before.InsertsAt place id) (rest : Batch) :
    InsertsAt (before ++ rest) place id := by
  obtain ⟨op, hop, hid⟩ := h
  exact ⟨op, by rw [List.getElem?_append_left (List.getElem?_eq_some_iff.mp hop).1, hop], hid⟩

theorem of_append (h : InsertsAt (before ++ rest) place id) (hlt : place < before.length) :
    before.InsertsAt place id := by
  obtain ⟨op, hop, hid⟩ := h
  exact ⟨op, by rw [← hop, List.getElem?_append_left hlt], hid⟩

theorem mem_inserted (h : batch.InsertsAt place id) : id ∈ batch.inserted := by
  obtain ⟨op, hop, hid⟩ := h
  exact List.mem_filterMap.mpr ⟨op, List.mem_of_getElem? hop, hid⟩

end InsertsAt

theorem exists_insertsAt (h : id ∈ batch.inserted) : ∃ place, batch.InsertsAt place id := by
  obtain ⟨op, hop, hid⟩ := List.mem_filterMap.mp h
  obtain ⟨place, hplace⟩ := List.getElem?_of_mem hop
  exact ⟨place, op, hplace, hid⟩

theorem insertsAt_concat :
    InsertsAt (before ++ [op]) place id ↔
      before.InsertsAt place id ∨ place = before.length ∧ op.inserted? = some id := by
  constructor
  · intro h
    have hlt := h.lt_length
    rw [List.length_append, List.length_singleton] at hlt
    by_cases heq : place = before.length
    · obtain ⟨op', hop, hid⟩ := h
      rw [heq, List.getElem?_concat_length] at hop
      exact .inr ⟨heq, Option.some.inj hop ▸ hid⟩
    · exact .inl (h.of_append (by omega))
  · rintro (h | ⟨rfl, hid⟩)
    · exact h.append [op]
    · exact ⟨op, List.getElem?_concat_length, hid⟩

theorem InsertsAgain.of_append (h : InsertsAgain (before ++ rest) place)
    (hlt : place < before.length) : before.InsertsAgain place := by
  obtain ⟨id, first, hfirst, hinserts, hagain⟩ := h
  exact ⟨id, first, hfirst, hinserts.of_append (Nat.lt_trans hfirst hlt), hagain.of_append hlt⟩

theorem InsertsOnce.not_insertsAgain (once : batch.InsertsOnce) : ¬batch.InsertsAgain place := by
  rintro ⟨id, first, hlt, hfirst, hagain⟩
  exact Nat.ne_of_lt hlt (once hfirst hagain)

theorem not_refersAhead
    (hback : ∀ {id j}, batch.RefersAt place id → batch.InsertsAt j id → j < place) :
    ¬batch.RefersAhead place := by
  rintro ⟨id, hrefers, hin, hahead⟩
  obtain ⟨inserter, hinserter⟩ := exists_insertsAt hin
  exact hahead inserter (hback hrefers hinserter) hinserter

theorem insertsOnce_iff_nodup : batch.InsertsOnce ↔ batch.inserted.Nodup := by
  rw [inserted, List.Nodup, List.pairwise_filterMap, List.pairwise_iff_getElem]
  constructor
  · rintro h i j hi hj hlt x hx _ hy rfl
    have hsame := h ⟨_, List.getElem?_eq_getElem hi, hx⟩ ⟨_, List.getElem?_eq_getElem hj, hy⟩
    omega
  · rintro h id i j ⟨op, hop, hid⟩ ⟨op', hop', hid'⟩
    obtain ⟨hi, rfl⟩ := List.getElem?_eq_some_iff.mp hop
    obtain ⟨hj, rfl⟩ := List.getElem?_eq_some_iff.mp hop'
    rcases Nat.lt_trichotomy i j with hlt | heq | hlt
    · exact absurd rfl (h i j hi hj hlt id hid id hid')
    · exact heq
    · exact absurd rfl (h j i hj hi hlt id hid' id hid)

def Locates (found : Places) (batch : Batch) : Prop :=
  ∀ {id place}, found[id]? = some place ↔ batch.InsertsAt place id

namespace Locates

variable {found : Places}

theorem once (h : Locates found batch) : batch.InsertsOnce := by
  intro id i j hi hj
  exact Option.some.inj ((h.mpr hi).symm.trans (h.mpr hj))

theorem nil : Locates ∅ [] := by
  intro id place
  simp [InsertsAt]

theorem concat_none (h : Locates found before) (hop : op.inserted? = none) :
    Locates found (before ++ [op]) := by
  intro x place
  rw [insertsAt_concat, hop, h]
  simp

theorem concat_some (h : Locates found before) (hop : op.inserted? = some id)
    (hnew : found[id]? = none) : Locates (found.insert id before.length) (before ++ [op]) := by
  intro x place
  rw [insertsAt_concat, hop, ← h, Std.ExtTreeMap.getElem?_insert]
  by_cases hx : id = x
  · subst hx
    simp [hnew, eq_comm]
  · simp [hx]

end Locates

inductive Located (batch : Batch) : Except OrderError Places → Prop where
  | all {found : Places} (locates : Locates found batch) : Located batch (.ok found)
  | duplicate {index first : Nat} {id : LinkId} (h : batch.Repeats index id first)
      (foremost : ∀ place < index, ¬batch.InsertsAgain place) :
      Located batch (.error (.duplicateId index id first))

theorem places_located {found : Places} (h : Locates found before) (rest : Batch) :
    Located (before ++ rest) (places before.length found rest) := by
  induction rest generalizing before found with
  | nil =>
      rw [List.append_nil]
      exact .all h
  | cons op rest ih =>
      have hnext {found : Places} (h : Locates found (before ++ [op])) :
          Located (before ++ op :: rest) (places (before.length + 1) found rest) := by
        have hrest := ih h
        rwa [List.append_assoc, List.length_append] at hrest
      rw [places]
      cases hop : op.inserted? with
      | none => exact hnext (h.concat_none hop)
      | some id =>
          dsimp only
          cases hfound : found[id]? with
          | none => exact hnext (h.concat_some hop hfound)
          | some first =>
              have hfirst : before.InsertsAt first id := h.mp hfound
              refine .duplicate ⟨hfirst.lt_length, ⟨op, by simp, hop⟩, hfirst.append _, ?_⟩ ?_
              · intro place hplace
                by_cases hlt : place < before.length
                · exact Nat.le_of_eq (h.once hfirst (hplace.of_append hlt))
                · have := hfirst.lt_length
                  omega
              · intro place hplace hagain
                exact InsertsOnce.not_insertsAgain h.once (hagain.of_append hplace)

inductive Checked (batch : Batch) : Except OrderError Unit → Prop where
  | ordered (h : batch.Ordered) : Checked batch (.ok ())
  | duplicate {index first : Nat} {id : LinkId} (h : batch.Repeats index id first)
      (foremost : ∀ place < index, ¬batch.InsertsAgain place) :
      Checked batch (.error (.duplicateId index id first))
  | forward {index insertedAt : Nat} {id : LinkId} (once : batch.InsertsOnce)
      (h : batch.Anticipates index id insertedAt)
      (foremost : ∀ place < index, ¬batch.RefersAhead place) :
      Checked batch (.error (.forwardReference index id insertedAt))

theorem mem_note {seen : Std.ExtTreeSet LinkId} :
    id ∈ note seen op ↔ op.inserted? = some id ∨ id ∈ seen := by
  rw [note]
  cases op.inserted? <;> simp

theorem mem_note_iff_inserted {seen : Std.ExtTreeSet LinkId}
    (hseen : ∀ id, id ∈ seen ↔ id ∈ before.inserted) (id : LinkId) :
    id ∈ note seen op ↔ id ∈ inserted (before ++ [op]) := by
  rw [mem_note, hseen, inserted_append, inserted_cons, List.mem_append, List.mem_append,
    Option.mem_toList, or_comm]
  simp [inserted]

section Pending

variable {found : Places} {seen : Std.ExtTreeSet LinkId} {ids : List LinkId}

theorem pending?_eq_some (h : pending? found seen ids = some (id, place)) :
    id ∈ ids ∧ id ∉ seen ∧ found[id]? = some place := by
  obtain ⟨x, hx, hsome⟩ := List.exists_of_findSome?_eq_some h
  simp only [Option.ite_none_left_eq_some, Option.map_eq_some_iff, Prod.mk.injEq] at hsome
  obtain ⟨hseen, _, hfound, rfl, rfl⟩ := hsome
  exact ⟨hx, by simpa using hseen, hfound⟩

theorem pending?_eq_none (h : pending? found seen ids = none) (hid : id ∈ ids)
    (hplace : found[id]? = some place) : id ∈ seen := by
  have hnone := List.findSome?_eq_none_iff.mp h id hid
  by_contra hseen
  simp [hseen, hplace] at hnone

theorem place_lt_of_pending?_eq_none (h : pending? found seen ids = none)
    (locates : Locates found (before ++ rest)) (hseen : ∀ id, id ∈ seen ↔ id ∈ before.inserted)
    (hid : id ∈ ids) (hinserts : InsertsAt (before ++ rest) place id) : place < before.length := by
  have hmem := (hseen id).mp (pending?_eq_none h hid (locates.mpr hinserts))
  obtain ⟨first, hfirst⟩ := exists_insertsAt hmem
  rw [locates.once hinserts (hfirst.append rest)]
  exact hfirst.lt_length

end Pending

/-- References are checked with all places at hand and with the ids that were inserted so far. -/
theorem checkReferences_checked {found : Places} {seen : Std.ExtTreeSet LinkId}
    (before rest : Batch) (locates : Locates found (before ++ rest))
    (hseen : ∀ id, id ∈ seen ↔ id ∈ before.inserted)
    (hback : ∀ {id i j}, i < before.length → RefersAt (before ++ rest) i id →
      InsertsAt (before ++ rest) j id → j < i) :
    Checked (before ++ rest) (checkReferences found before.length seen rest) := by
  -- The places stay those of the whole batch; what is seen grows with the part that is checked.
  induction rest generalizing before seen with
  | nil =>
      refine .ordered ⟨locates.once, fun {id i j} hrefers hinserts => ?_⟩
      refine hback ?_ hrefers hinserts
      obtain ⟨op, hop, -⟩ := hrefers
      rw [← List.append_nil before]
      exact (List.getElem?_eq_some_iff.mp hop).1
  | cons op rest ih =>
      have hat : (before ++ op :: rest)[before.length]? = some op := by simp
      rw [checkReferences]
      cases hpending : pending? found seen op.references with
      | some p =>
          obtain ⟨id, insertedAt⟩ := p
          obtain ⟨hid, hnew, hfound⟩ := pending?_eq_some hpending
          have hinserts := locates.mp hfound
          refine .forward locates.once
            ⟨⟨op, hat, hid⟩, hinserts, Nat.le_of_not_lt fun hlt => ?_⟩ ?_
          · exact hnew ((hseen id).mpr (hinserts.of_append hlt).mem_inserted)
          · exact fun place hplace => not_refersAhead (hback hplace)
      | none =>
          have hthis {id : LinkId} {j : Nat} (hid : id ∈ op.references)
              (hinserts : InsertsAt (before ++ op :: rest) j id) : j < before.length :=
            place_lt_of_pending?_eq_none hpending locates hseen hid hinserts
          have hmove : before ++ op :: rest = (before ++ [op]) ++ rest := by simp
          have hlength : (before ++ [op]).length = before.length + 1 := by simp
          rw [hmove] at locates hback hat hthis ⊢
          dsimp only
          rw [← hlength]
          refine ih (before ++ [op]) locates (mem_note_iff_inserted hseen) ?_
          intro id i j hi hrefers hinserts
          by_cases hlt : i < before.length
          · exact hback hlt hrefers hinserts
          · obtain rfl : i = before.length := by omega
            obtain ⟨op', hop, hid⟩ := hrefers
            obtain rfl : op = op' := Option.some.inj (hat.symm.trans hop)
            exact hthis hid hinserts

theorem checkOrder_checked (batch : Batch) : Checked batch batch.checkOrder := by
  have h : Located batch _ := places_located Locates.nil batch
  rw [checkOrder]
  change Located batch (places 0 ∅ batch) at h
  cases hplaces : places 0 ∅ batch with
  | error e =>
      rw [hplaces] at h
      cases h with
      | duplicate h foremost => exact .duplicate h foremost
  | ok found =>
      rw [hplaces] at h
      cases h with
      | all locates =>
          exact checkReferences_checked [] batch locates (by simp [inserted]) nofun

theorem checkOrder_eq_ok_iff_ordered : batch.checkOrder = .ok () ↔ batch.Ordered := by
  have h := batch.checkOrder_checked
  generalize batch.checkOrder = r at h
  cases h with
  | ordered h => exact iff_of_true rfl h
  | duplicate h =>
      refine iff_of_false nofun fun hordered => ?_
      exact Nat.ne_of_lt h.lt (hordered.once h.inserts h.again)
  | forward _ h =>
      refine iff_of_false nofun fun hordered => ?_
      exact Nat.not_lt_of_le h.le (hordered.back h.refers h.inserts)

theorem nodup_of_checkOrder (h : batch.checkOrder = .ok ()) : batch.inserted.Nodup :=
  insertsOnce_iff_nodup.mp (checkOrder_eq_ok_iff_ordered.mp h).once

theorem checkOrder_eq_ok (hnodup : batch.inserted.Nodup)
    (h : ∀ before op after, batch = before ++ op :: after → ∀ id ∈ op.references,
      id ∈ batch.inserted → id ∈ inserted before) : batch.checkOrder = .ok () := by
  have once : batch.InsertsOnce := insertsOnce_iff_nodup.mpr hnodup
  refine checkOrder_eq_ok_iff_ordered.mpr ⟨once, fun {id i j} hrefers hinserts => ?_⟩
  obtain ⟨op, hop, hid⟩ := hrefers
  obtain ⟨hi, rfl⟩ := List.getElem?_eq_some_iff.mp hop
  have hsplit : batch = batch.take i ++ batch[i] :: batch.drop (i + 1) := by simp
  have hmem := h _ _ _ hsplit id hid hinserts.mem_inserted
  obtain ⟨place, hplace⟩ := exists_insertsAt hmem
  have hlt := hplace.lt_length
  have hwhole := hplace.append (batch[i] :: batch.drop (i + 1))
  rw [← hsplit] at hwhole
  rw [List.length_take] at hlt
  have hsame := once hinserts hwhole
  omega

/-- The check accepts exactly the ordered batches, and what it says of another one is true: of an id
that is inserted again it tells where and where it was inserted first, and of one that is referred
to too early where and where it is inserted. The latter only when no id is inserted twice. -/
theorem checkOrder_tells (batch : Batch) :
    (batch.checkOrder = .ok () ↔ batch.Ordered) ∧
      (∀ index id first, batch.checkOrder = .error (.duplicateId index id first) →
        batch.Repeats index id first) ∧
      ∀ index id insertedAt, batch.checkOrder = .error (.forwardReference index id insertedAt) →
        batch.Anticipates index id insertedAt ∧ batch.InsertsOnce := by
  refine ⟨checkOrder_eq_ok_iff_ordered, fun index id first h => ?_, fun index id place h => ?_⟩
  · have hchecked := batch.checkOrder_checked
    rw [h] at hchecked
    cases hchecked with
    | duplicate h => exact h
  · have hchecked := batch.checkOrder_checked
    rw [h] at hchecked
    cases hchecked with
    | forward once h => exact ⟨h, once⟩

theorem misordered_told :
    let again : Batch := [.insertValue 10 "a", .edge 11 2 11 10, .node 10 1, .node 11 10]
    let early : Batch := [.node 10 1, .insertValue 10 "a", .edge 11 2 500 10, .edge 12 12 10 500]
    (again.checkOrder = .error (.duplicateId 3 11 1) ∧ again.Repeats 3 11 1) ∧
      early.checkOrder = .error (.forwardReference 3 12 3) ∧ early.Anticipates 3 12 3 ∧
        early.InsertsOnce := by
  intro again early
  have hagain : again.checkOrder = .error (.duplicateId 3 11 1) := rfl
  have hearly : early.checkOrder = .error (.forwardReference 3 12 3) := rfl
  exact ⟨⟨hagain, (checkOrder_tells again).2.1 3 11 1 hagain⟩, hearly,
    (checkOrder_tells early).2.2 3 12 3 hearly⟩

end LinkGraph.Batch
