import LinkGraph.Proofs.Batch.Ordered
import LinkGraph.Store.Access

namespace LinkGraph.Store

def node? (s : Store) (id : LinkId) : Option Node := s.links[id]?.map (·.toNode)

theorem node?_eq_some_iff {s : Store} {id : LinkId} {node : Node} :
    s.node? id = some node ↔ ∃ l, s.links[id]? = some l ∧ l.toNode = node :=
  Option.map_eq_some_iff

theorem hasLink_eq_isSome (s : Store) (id : LinkId) : s.hasLink id = s.links[id]?.isSome := by
  rw [hasLink, Std.ExtTreeMap.contains_eq_isSome_getElem?]

theorem hasLink_iff {s : Store} {id : LinkId} :
    s.hasLink id = true ↔ ∃ node, s.node? id = some node := by
  rw [hasLink_eq_isSome, ← Option.isSome_map, ← node?, Option.isSome_iff_exists]

theorem hasLink_eq_false_iff {s : Store} {id : LinkId} :
    s.hasLink id = false ↔ s.links[id]? = none := by
  rw [hasLink_eq_isSome, Option.isSome_eq_false_iff, Option.isNone_iff_eq_none]

theorem hasLink_of_link {s : Store} {id : LinkId} {l : Link} (h : s.links[id]? = some l) :
    s.hasLink id = true := by
  rw [hasLink_eq_isSome, h]
  rfl

@[simp] theorem hasLink_putLink (s : Store) (l : Link) (x : LinkId) :
    (s.putLink l).hasLink x = (decide (l.id = x) || s.hasLink x) := by
  rw [Bool.eq_iff_iff]
  simp [putLink, hasLink]

theorem hasLink_write_iff {s : Store} {op : Operation} {id : LinkId} :
    (s.write op).hasLink id = true ↔ s.hasLink id = true ∨ op.inserted? = some id := by
  cases op with
  | insertNode x node => simp [write, Operation.inserted?, or_comm]
  | insertValue target value => simp [write, putString, hasLink, Operation.inserted?]

@[simp] theorem nextId_write (s : Store) (op : Operation) : (s.write op).nextId = s.nextId := by
  cases op <;> rfl

@[simp] theorem names_write (s : Store) (op : Operation) : (s.write op).names = s.names := by
  cases op <;> rfl

@[simp] theorem documents_write (s : Store) (op : Operation) :
    (s.write op).documents = s.documents := by
  cases op <;> rfl

/-- The second store is the first one with what was noted on the way written into it. -/
structure Tracks (s : Store) (before : Progress) (now : Store) : Prop where
  links : ∀ id, now.hasLink id = (before.inserted.contains id || s.hasLink id)
  strings : ∀ id, now.strings.contains id = (s.strings.contains id || before.valued.contains id)

theorem tracks_start (s : Store) : Tracks s {} s :=
  ⟨fun id => by simp, fun id => by simp⟩

theorem step_eq_check {s now : Store} {before : Progress} (h : Tracks s before now) (index : Nat)
    (op : Operation) (fresh : ∀ id, op.inserted? = some id → before.inserted.contains id = false) :
    stepTransaction s.nextId index now op =
      (s.checkOperation index before op).map fun _ => now.write op := by
  unfold stepTransaction checkOperation
  simp only [h.links]
  cases op.references.find? fun id => !(before.inserted.contains id || s.hasLink id) with
  | some id => rfl
  | none =>
      cases op with
      | insertNode id node =>
          simp only [fresh id rfl, Bool.false_or]
          split
          · rfl
          · split <;> rfl
      | insertValue target value =>
          simp only [h.strings]
          split <;> rfl

theorem tracks_write {s now : Store} {before before' : Progress} (h : Tracks s before now)
    {index : Nat} {op : Operation} (hcheck : s.checkOperation index before op = .ok before') :
    Tracks s before' (now.write op) ∧ before'.inserted = Batch.note before.inserted op := by
  unfold checkOperation at hcheck
  split at hcheck
  · cases hcheck
  · cases op with
    | insertNode id node =>
        simp only at hcheck
        split at hcheck
        · cases hcheck
        · split at hcheck
          · cases hcheck
          · cases hcheck
            refine ⟨⟨fun x => ?_, h.strings⟩, rfl⟩
            rw [Bool.eq_iff_iff]
            simp [write, h.links, or_assoc]
    | insertValue target value =>
        simp only at hcheck
        split at hcheck
        · cases hcheck
        · cases hcheck
          refine ⟨⟨h.links, fun x => ?_⟩, rfl⟩
          rw [Bool.eq_iff_iff]
          simp [write, putString, h.strings, or_left_comm]

theorem run_eq_check {s now : Store} {before : Progress} (h : Tracks s before now) (index : Nat)
    (batch : Batch) (hnodup : batch.inserted.Nodup)
    (fresh : ∀ id ∈ batch.inserted, before.inserted.contains id = false) :
    runTransaction s.nextId index now batch =
      (s.checkOperations index before batch).map fun _ => batch.foldl write now := by
  induction batch generalizing before now index with
  | nil => rfl
  | cons op rest ih =>
      -- Only an id that is inserted again is judged differently, and an ordered batch has none.
      rw [Batch.inserted_cons] at hnodup fresh
      have hop : ∀ id, op.inserted? = some id → before.inserted.contains id = false :=
        fun id hid => fresh id (by simp [hid])
      rw [runTransaction, checkOperations, step_eq_check h index op hop]
      cases hcheck : s.checkOperation index before op with
      | error e => rfl
      | ok before' =>
          obtain ⟨htracks, hnote⟩ := tracks_write h hcheck
          refine ih htracks (index + 1) (List.nodup_append.mp hnodup).2.1 ?_
          intro id hid
          rw [hnote, Batch.note]
          cases hins : op.inserted? with
          | none => exact fresh id (List.mem_append_right _ hid)
          | some x =>
              have hne : x ≠ id :=
                (List.nodup_append.mp hnodup).2.2 x (by simp [hins]) id hid
              simpa [Std.ExtTreeSet.contains_insert, hne] using
                fresh id (List.mem_append_right _ hid)

/-- Checking all and then writing comes to the same as checking and writing step by step. -/
theorem applyTransaction_eq_applyChecked (s : Store) (batch : Batch) :
    s.applyTransaction batch = s.applyChecked batch := by
  rw [applyTransaction, applyChecked, ordered]
  cases horder : batch.checkOrder with
  | error e => rfl
  | ok u =>
      have h := run_eq_check s.tracks_start 0 batch (Batch.nodup_of_checkOrder horder) (by simp)
      change runTransaction s.nextId 0 s batch = _
      rw [h]
      cases s.checkOperations 0 {} batch <;> rfl

theorem apply_eq_applyTransaction (backend : Backend) (s : Store) (batch : Batch) :
    s.apply backend batch = s.applyTransaction batch := by
  cases backend with
  | memory => exact (s.applyTransaction_eq_applyChecked batch).symm
  | database => rfl

/-- An operation that can be written: it refers to what is stored, inserts a link that was handed
out and is not stored, and gives no second text. -/
def Admits (s : Store) (op : Operation) : Prop :=
  (∀ id ∈ op.references, s.hasLink id = true) ∧
    match op with
    | .insertNode id _ => s.hasLink id = false ∧ id < s.nextId
    | .insertValue target _ => s.strings.contains target = false

/-- A batch that can be written in its order, and the store after it. -/
inductive Written : Store → Batch → Store → Prop where
  | nil (s : Store) : Written s [] s
  | cons {s s' : Store} {op : Operation} {batch : Batch} (admits : s.Admits op)
      (rest : Written (s.write op) batch s') : Written s (op :: batch) s'

theorem stepTransaction_eq_ok_iff {s s' : Store} {index : Nat} {op : Operation} :
    stepTransaction s.nextId index s op = .ok s' ↔ s.Admits op ∧ s' = s.write op := by
  unfold stepTransaction Admits
  cases hfind : op.references.find? fun id => !s.hasLink id with
  | some id =>
      have hmem := List.mem_of_find?_eq_some hfind
      have hid := List.find?_some hfind
      simp only [reduceCtorEq, false_iff]
      rintro ⟨⟨hall, -⟩, -⟩
      simp [hall id hmem] at hid
  | none =>
      have hall : ∀ id ∈ op.references, s.hasLink id = true := by
        simpa using hfind
      cases op with
      | insertNode id node =>
          cases hs : s.hasLink id with
          | true => simp [hs]
          | false =>
              by_cases hid : s.nextId ≤ id
              · simp [hs, hid, Nat.not_lt.mpr hid]
              · have hlt := Nat.lt_of_not_le hid
                simp only [hs, hid, Bool.false_eq_true, if_false, Except.ok.injEq]
                exact ⟨fun h => ⟨⟨hall, trivial, hlt⟩, h.symm⟩, fun h => h.2.symm⟩
      | insertValue target value =>
          cases hs : s.strings.contains target with
          | true => simp only [hs, if_true, reduceCtorEq, and_false, false_and]
          | false =>
              simp only [hs, Bool.false_eq_true, if_false, Except.ok.injEq]
              exact ⟨fun h => ⟨⟨hall, trivial⟩, h.symm⟩, fun h => h.2.symm⟩

theorem runTransaction_eq_ok_iff (index : Nat) {s s' : Store} {batch : Batch} :
    runTransaction s.nextId index s batch = .ok s' ↔ Written s batch s' := by
  induction batch generalizing s index with
  | nil =>
      constructor
      · rintro ⟨⟩
        exact .nil _
      · rintro ⟨⟩
        rfl
  | cons op rest ih =>
      constructor
      · intro h
        rw [runTransaction] at h
        cases hstep : stepTransaction s.nextId index s op with
        | error e => rw [hstep] at h; cases h
        | ok t =>
            obtain ⟨hadmits, rfl⟩ := stepTransaction_eq_ok_iff.mp hstep
            rw [hstep] at h
            exact .cons hadmits ((ih (index + 1)).mp (by rwa [nextId_write]))
      · rintro (_ | ⟨hadmits, hrest⟩)
        rw [runTransaction, stepTransaction_eq_ok_iff.mpr ⟨hadmits, rfl⟩]
        rw [← nextId_write s op]
        exact (ih (index + 1)).mpr hrest

/-- A store of either make takes exactly the ordered batches that can be written in their order. -/
theorem apply_eq_ok_iff {backend : Backend} {s s' : Store} {batch : Batch} :
    s.apply backend batch = .ok s' ↔ batch.checkOrder = .ok () ∧ Written s batch s' := by
  rw [apply_eq_applyTransaction, applyTransaction, ordered,
    ← runTransaction_eq_ok_iff 0]
  cases batch.checkOrder with
  | error e => simp [bind, Except.bind]
  | ok u => simp [bind, Except.bind]

end LinkGraph.Store
