import LinkGraph.Proofs.Store.Sound

namespace LinkGraph

theorem find?_eq_lookup (names : List (Name × LinkId)) (scope name : String) :
    (names.find? fun row => row.1.scope = scope && row.1.name = name).map (·.2) =
      names.lookup ⟨scope, name⟩ := by
  induction names with
  | nil => rfl
  | cons row rest ih =>
      obtain ⟨⟨scope', name'⟩, id⟩ := row
      rw [List.find?_cons, List.lookup_cons]
      by_cases h : scope' = scope ∧ name' = name
      · obtain ⟨rfl, rfl⟩ := h
        simp
      · have hfind : (decide (scope' = scope) && decide (name' = name)) = false := by
          rwa [← Bool.decide_and, decide_eq_false_iff_not]
        have hlookup : ((⟨scope, name⟩ : Name) == ⟨scope', name'⟩) = false := by
          rw [beq_eq_false_iff_ne]
          rintro ⟨⟩
          exact h ⟨rfl, rfl⟩
        dsimp only
        rw [hfind, hlookup]
        exact ih

namespace Store

/-- So many more ids can be given out before the next one comes round. -/
def HasRoom (s : Store) (count : Nat) : Prop := s.nextId + count < LinkId.bound

instance (s : Store) (count : Nat) : Decidable (s.HasRoom count) :=
  inferInstanceAs (Decidable (_ < _))

variable {s s' : Store} {backend : Backend} {count : Nat}

theorem nextId_advance (h : s.HasRoom count) : (s.advance count).nextId = s.nextId + count :=
  Nat.mod_eq_of_lt h

theorem idsAhead_of_room (h : s.HasRoom count) : s.idsAhead count = List.range' s.nextId count := by
  rw [idsAhead, nextId_advance h, Nat.add_sub_cancel_left]

theorem mem_idsAhead {id : LinkId} :
    id ∈ s.idsAhead count ↔ s.nextId ≤ id ∧ id < (s.advance count).nextId := by
  have hsub : ∀ first last x : Nat, first ≤ x → (x < first + (last - first) ↔ x < last) := by omega
  rw [idsAhead, List.mem_range'_1]
  exact and_congr_right fun hle => hsub _ _ _ hle

theorem idsAhead_of_length (h : (s.idsAhead count).length = count) :
    s.idsAhead count = List.range' s.nextId count := by
  rw [idsAhead, List.length_range'] at h
  rw [idsAhead, h]

theorem nextId_of_length (hcount : count ≠ 0) (h : (s.idsAhead count).length = count) :
    (s.advance count).nextId = s.nextId + count := by
  have hadd : ∀ first last : Nat, last - first = count → last = first + count := by omega
  rw [idsAhead, List.length_range'] at h
  exact hadd _ _ h

theorem room_of_length (hcount : count ≠ 0) (h : (s.idsAhead count).length = count) :
    s.HasRoom count := by
  rw [HasRoom, ← nextId_of_length hcount h]
  exact Nat.mod_lt _ (by decide)

theorem idsAhead_one {id : LinkId} {rest : List LinkId} (h : s.idsAhead 1 = id :: rest) :
    id = s.nextId := by
  rw [idsAhead] at h
  cases hcount : (s.advance 1).nextId - s.nextId with
  | zero => rw [hcount] at h; cases h
  | succ n => rw [hcount, List.range'_succ] at h; exact (List.cons.inj h).1.symm

namespace Database

theorem toRow_emod (n : Nat) : toRow n % LinkId.bound = n % LinkId.bound := by
  rw [toRow]
  split
  · rfl
  · exact Int.sub_emod_right _ _

theorem ofRow_add (m n : Nat) : ofRow (toRow m + toRow n) = (m + n) % LinkId.bound := by
  rw [ofRow, Int.add_emod, toRow_emod, toRow_emod, ← Int.add_emod, ← Int.natCast_add,
    ← Int.natCast_emod, Int.toNat_natCast]

theorem moveSequence_eq_advance (s : Store) (count : Nat) :
    moveSequence s count = s.advance count := by
  rw [moveSequence, ofRow_add, advance]

theorem reserve_eq_memory (s : Store) (count : Nat) : reserve s count = Memory.reserve s count := by
  rw [reserve, Memory.reserve, moveSequence_eq_advance]
  rfl

theorem resolve_eq_memory (s : Store) (scope name : String) :
    resolve s scope name = Memory.resolve s scope name := by
  rw [resolve, Memory.resolve, ← find?_eq_lookup]
  cases s.names.find? fun row => row.1.scope = scope && row.1.name = name <;> rfl

theorem upsert_eq_insert (m : Std.ExtTreeMap LinkId Json) (id : LinkId) (value : Json) :
    upsert m id value = m.insert id value := by
  refine Std.ExtTreeMap.ext_getElem? fun x => ?_
  rw [upsert]
  by_cases hin : id ∈ m
  · rw [if_pos (Std.ExtTreeMap.contains_iff_mem.mpr hin)]
    by_cases hid : id = x
    · simp [← hid, hin]
    · simp [Std.ExtTreeMap.getElem?_modify, Std.ExtTreeMap.getElem?_insert, hid]
  · rw [if_neg fun h => hin (Std.ExtTreeMap.contains_iff_mem.mp h)]
    by_cases hid : id = x
    · rw [← hid, Std.ExtTreeMap.getElem?_insertIfNew, if_pos ⟨Std.compare_self, hin⟩,
        Std.ExtTreeMap.getElem?_insert_self]
    · simp [Std.ExtTreeMap.getElem?_insertIfNew, Std.ExtTreeMap.getElem?_insert, hid]

theorem setDocument_eq_memory (s : Store) (id : LinkId) (value : Json) :
    setDocument s id value = Memory.setDocument s id value := by
  rw [setDocument, upsert_eq_insert]
  rfl

theorem joined_eq_fetch (hs : s.Closed) (anchor : LinkId) (side : End) :
    joined s anchor side = (Memory.fetch s anchor side).map fun d => (d.link, d.value) := by
  rw [joined, Memory.fetch]
  cases s.links[anchor]? with
  | none => rfl
  | some l =>
      cases hside : l.follow side with
      | none => simp [hside]
      | some target =>
          cases htarget : s.links[target]? with
          | none => simp [hside, htarget, hasLink_eq_isSome]
          | some l' => simp [hside, htarget, hasLink_eq_isSome, hs.keyed htarget, document?]

end Database

theorem reserve_eq (backend : Backend) (s : Store) (count : Nat) :
    s.reserve backend count = Memory.reserve s count := by
  cases backend with
  | memory => rfl
  | database => exact Database.reserve_eq_memory s count

theorem resolve_eq (backend : Backend) (s : Store) (scope name : String) :
    s.resolve backend scope name = Memory.resolve s scope name := by
  cases backend with
  | memory => rfl
  | database => exact Database.resolve_eq_memory s scope name

theorem setDocument_eq (backend : Backend) (s : Store) (id : LinkId) (value : Json) :
    s.setDocument backend id value = Memory.setDocument s id value := by
  cases backend with
  | memory => rfl
  | database => exact Database.setDocument_eq_memory s id value

theorem reserve_eq_ok {ids : List LinkId} (h : s.reserve backend count = .ok (ids, s')) :
    count ≠ 0 ∧ ids = s.idsAhead count ∧ s' = s.advance count := by
  rw [reserve_eq, Memory.reserve] at h
  split at h
  · cases h
  · next hcount =>
      cases h
      exact ⟨hcount, rfl, rfl⟩

theorem setDocument_eq_ok {id : LinkId} {value : Json}
    (h : s.setDocument backend id value = .ok s') :
    s.hasLink id = true ∧ s' = s.putDocument id value := by
  rw [setDocument_eq, Memory.setDocument] at h
  split at h
  · next hlink =>
      cases h
      exact ⟨hlink, rfl⟩
  · cases h

theorem insertLink_eq_ok {node : Node} {id : LinkId}
    (h : s.insertLink backend node = .ok (id, s')) :
    (∀ x ∈ node.references, s.hasLink x = true) ∧ id = s.nextId ∧
      s' = (s.advance 1).putLink ⟨node, s.nextId⟩ := by
  cases backend with
  | memory =>
      rw [insertLink, Memory.insertLink, allocate] at h
      split at h
      · cases h
      · next hfind =>
          cases hids : s.idsAhead 1 with
          | nil => rw [hids] at h; cases h
          | cons first rest =>
              rw [hids] at h
              cases h
              obtain rfl := idsAhead_one hids
              exact ⟨by simpa using hfind, rfl, rfl⟩
  | database =>
      rw [insertLink, Database.insertLink, Database.moveSequence_eq_advance] at h
      split at h
      · cases h
      · next hfind =>
          split at h
          · cases h
          · cases h
            exact ⟨by simpa using hfind, rfl, rfl⟩

theorem insertLink_of_room {node : Node} (hroom : s.HasRoom 1) (hfree : s.hasLink s.nextId = false)
    (known : ∀ x ∈ node.references, s.hasLink x = true) :
    s.insertLink backend node = .ok (s.nextId, (s.advance 1).putLink ⟨node, s.nextId⟩) := by
  have hfind : (node.references.find? fun id => !s.hasLink id) = none := by simpa using known
  cases backend with
  | memory => rw [insertLink, Memory.insertLink, hfind, allocate, idsAhead_of_room hroom]; rfl
  | database =>
      rw [insertLink, Database.insertLink, hfind, hfree, Database.moveSequence_eq_advance]
      rfl

theorem insertLink_of_unknown {node : Node} {x : LinkId}
    (hfind : (node.references.find? fun id => !s.hasLink id) = some x) :
    s.insertLink backend node = .error (.rejected ("unknown id " ++ toString x)) := by
  cases backend with
  | memory => rw [insertLink, Memory.insertLink, hfind]
  | database => rw [insertLink, Database.insertLink, hfind]

/-- What a document of a store is fetched as. -/
def Backend.recall (backend : Backend) (j : Json) : Except StoreError Json :=
  match backend with
  | .memory => .ok j
  | .database =>
      match j.readBack with
      | .ok value => .ok value
      | .error why => .error (.internal ("JSON error: " ++ why))

def Document.recalled (backend : Backend) : Option Document → Except StoreError (Option Document)
  | some ⟨link, some j⟩ => do return some ⟨link, some (← backend.recall j)⟩
  | found => .ok found

theorem fetch_eq (hs : s.Closed) (backend : Backend) (anchor : LinkId) (side : End) :
    s.fetch backend anchor side = Document.recalled backend (Memory.fetch s anchor side) := by
  cases backend with
  | memory =>
      rw [fetch]
      obtain _ | ⟨link, _ | j⟩ := Memory.fetch s anchor side <;> rfl
  | database =>
      rw [fetch, Database.fetch, Database.joined_eq_fetch hs]
      obtain _ | ⟨link, _ | j⟩ := Memory.fetch s anchor side
      · rfl
      · rfl
      · dsimp only [Option.map_some, Document.recalled, Backend.recall]
        cases j.readBack <;> rfl

end Store

end LinkGraph
