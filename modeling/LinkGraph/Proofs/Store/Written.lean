import LinkGraph.Proofs.Store.Transaction

namespace LinkGraph.Store

theorem getElem?_putLink {s : Store} {l : Link} (hid : s.hasLink l.id = false) (x : LinkId)
    (l' : Link) :
    (s.putLink l).links[x]? = some l' ↔ s.links[x]? = some l' ∨ x = l.id ∧ l' = l := by
  by_cases hx : l.id = x
  · subst hx
    rw [hasLink_eq_false_iff] at hid
    simp [putLink, hid, eq_comm]
  · simp [putLink, Std.ExtTreeMap.getElem?_insert, hx, Ne.symm hx]

theorem getElem?_putString {s : Store} {target : LinkId} (ht : s.strings.contains target = false)
    (value : String) (x : LinkId) (v : String) :
    (s.putString target value).strings[x]? = some v ↔
      s.strings[x]? = some v ∨ x = target ∧ v = value := by
  by_cases hx : target = x
  · subst hx
    rw [Std.ExtTreeMap.contains_eq_isSome_getElem?, Option.isSome_eq_false_iff,
      Option.isNone_iff_eq_none] at ht
    simp [putString, ht, eq_comm]
  · simp [putString, Std.ExtTreeMap.getElem?_insert, hx, Ne.symm hx]

theorem links_write {s : Store} {op : Operation} (h : s.Admits op) (id : LinkId) (l : Link) :
    (s.write op).links[id]? = some l ↔
      s.links[id]? = some l ∨ l.id = id ∧ Operation.insertNode id l.toNode = op := by
  cases op with
  | insertNode x n =>
      obtain ⟨node, key⟩ := l
      rw [write, getElem?_putLink h.2.1, Operation.insertNode.injEq, Link.mk.injEq]
      refine or_congr_right ⟨?_, ?_⟩
      · rintro ⟨rfl, rfl, rfl⟩
        exact ⟨rfl, rfl, rfl⟩
      · rintro ⟨rfl, rfl, rfl⟩
        exact ⟨rfl, rfl, rfl⟩
  | insertValue target value => simp [write, putString]

theorem strings_write {s : Store} {op : Operation} (h : s.Admits op) (id : LinkId) (text : String) :
    (s.write op).strings[id]? = some text ↔
      s.strings[id]? = some text ∨ Operation.insertValue id text = op := by
  cases op with
  | insertNode x n => simp [write, putLink]
  | insertValue target value =>
      rw [write, getElem?_putString h.2, Operation.insertValue.injEq]

namespace Written

variable {s s' : Store} {batch : Batch}

theorem nextId (h : Written s batch s') : s'.nextId = s.nextId := by
  induction h with
  | nil => rfl
  | cons _ _ ih => rw [ih, nextId_write]

theorem names (h : Written s batch s') : s'.names = s.names := by
  induction h with
  | nil => rfl
  | cons _ _ ih => rw [ih, names_write]

theorem documents (h : Written s batch s') : s'.documents = s.documents := by
  induction h with
  | nil => rfl
  | cons _ _ ih => rw [ih, documents_write]

theorem links (h : Written s batch s') (id : LinkId) (l : Link) :
    s'.links[id]? = some l ↔
      s.links[id]? = some l ∨ l.id = id ∧ .insertNode id l.toNode ∈ batch := by
  induction h with
  | nil => simp
  | cons admits _ ih =>
      rw [ih, links_write admits, List.mem_cons, or_assoc, and_or_left]

theorem nodes (h : Written s batch s') (id : LinkId) (node : Node) :
    s'.node? id = some node ↔ s.node? id = some node ∨ .insertNode id node ∈ batch := by
  simp only [node?_eq_some_iff, h.links, or_and_right, exists_or]
  refine or_congr_right ⟨?_, fun hmem => ⟨⟨node, id⟩, ⟨rfl, hmem⟩, rfl⟩⟩
  rintro ⟨l, ⟨-, hmem⟩, rfl⟩
  exact hmem

theorem strings (h : Written s batch s') (id : LinkId) (text : String) :
    s'.strings[id]? = some text ↔ s.strings[id]? = some text ∨ .insertValue id text ∈ batch := by
  induction h with
  | nil => simp
  | cons admits _ ih => rw [ih, strings_write admits, List.mem_cons, or_assoc]

theorem inserted_fresh (h : Written s batch s') {id : LinkId} (hid : id ∈ batch.inserted) :
    s.hasLink id = false ∧ id < s.nextId := by
  obtain ⟨node, hmem⟩ := Batch.mem_inserted.mp hid
  clear hid
  induction h with
  | nil => cases hmem
  | @cons s s' op batch admits _ ih =>
      rcases List.mem_cons.mp hmem with rfl | hmem
      · exact admits.2
      · obtain ⟨hlink, hnext⟩ := ih hmem
        rw [nextId_write] at hnext
        refine ⟨?_, hnext⟩
        rw [hasLink_eq_false_iff] at hlink ⊢
        rw [Option.eq_none_iff_forall_ne_some] at hlink ⊢
        intro l hl
        exact hlink l ((links_write admits id l).mpr (.inl hl))

end Written

end LinkGraph.Store
