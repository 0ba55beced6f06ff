import LinkGraph.Proofs.Store.Trail

namespace LinkGraph.Store

/-- The second store holds all that the first one does. Only a document may have been replaced, and
then by one of the events between them. -/
structure Grows (s : Store) (es : List Event) (t : Store) : Prop where
  links : ∀ {id : LinkId} {l : Link}, s.links[id]? = some l → t.links[id]? = some l
  strings : ∀ {id : LinkId} {text : String}, s.strings[id]? = some text → t.strings[id]? = some text
  documents : ∀ id : LinkId, t.documents[id]? = s.documents[id]? ∨
    ∃ value, .documented id value ∈ es ∧ t.documents[id]? = some value
  names : t.names = s.names
  nextId : s.nextId ≤ t.nextId
  size : s.size ≤ t.size

variable {s t u : Store} {es es' : List Event}

theorem Grows.refl (s : Store) : Grows s [] s where
  links h := h
  strings h := h
  documents _ := .inl rfl
  names := rfl
  nextId := Nat.le_refl _
  size := Nat.le_refl _

theorem Grows.trans (h : Grows s es t) (h' : Grows t es' u) : Grows s (es ++ es') u where
  links hl := h'.links (h.links hl)
  strings htext := h'.strings (h.strings htext)
  documents id := by
    rcases h'.documents id with hkept | ⟨value, hmem, hvalue⟩
    · rcases h.documents id with hold | ⟨value, hmem, hvalue⟩
      · exact .inl (hkept.trans hold)
      · exact .inr ⟨value, List.mem_append_left _ hmem, hkept.trans hvalue⟩
    · exact .inr ⟨value, List.mem_append_right _ hmem, hvalue⟩
  names := h'.names.trans h.names
  nextId := Nat.le_trans h.nextId h'.nextId
  size := Nat.le_trans h.size h'.size

theorem Step.documents {e : Event} (h : Step s e t) (id : LinkId) :
    t.documents[id]? = s.documents[id]? ∨
      ∃ value, .documented id value = e ∧ t.documents[id]? = some value := by
  cases h with
  | reserved | inserted => exact .inl rfl
  | applied written => exact .inl (by rw [written.documents])
  | @documented target known value =>
      by_cases hid : target = id
      · exact .inr ⟨value, by rw [hid], by simp [putDocument, hid]⟩
      · exact .inl (by simp [putDocument, Std.ExtTreeMap.getElem?_insert, hid])

theorem Trail.documents (h : Trail s es t) (id : LinkId) :
    t.documents[id]? = s.documents[id]? ∨
      ∃ value, .documented id value ∈ es ∧ t.documents[id]? = some value := by
  induction h with
  | nil => exact .inl rfl
  | cons step _ ih =>
      rcases ih with hkept | ⟨value, hmem, hvalue⟩
      · rcases step.documents id with hold | ⟨value, rfl, hvalue⟩
        · exact .inl (hkept.trans hold)
        · exact .inr ⟨value, List.mem_cons_self, hkept.trans hvalue⟩
      · exact .inr ⟨value, List.mem_cons_of_mem _ hmem, hvalue⟩

theorem Trail.document_of_notMem (h : Trail s es t) {id : LinkId}
    (hid : ∀ value, .documented id value ∉ es) : t.documents[id]? = s.documents[id]? :=
  (h.documents id).resolve_right fun ⟨value, hmem, _⟩ => hid value hmem

theorem size_le_putLink (s : Store) (l : Link) : s.size ≤ (s.putLink l).size :=
  Std.ExtTreeMap.size_le_size_insert

theorem Written.size_le {batch : Batch} (h : Written s batch t) : s.size ≤ t.size := by
  induction h with
  | nil => exact Nat.le_refl _
  | @cons s _ op _ _ _ ih =>
      have hop : s.size ≤ (s.write op).size := by
        cases op with
        | insertNode id node => exact s.size_le_putLink ⟨node, id⟩
        | insertValue target value => exact Nat.le_refl _
      exact Nat.le_trans hop ih

theorem Ahead.links_inserted (hs : s.Ahead) (node : Node) (id : LinkId) (l : Link) :
    ((s.advance 1).putLink ⟨node, s.nextId⟩).links[id]? = some l ↔
      s.links[id]? = some l ∨ id = s.nextId ∧ l = ⟨node, s.nextId⟩ :=
  getElem?_putLink (s := s.advance 1) (hs.fresh_nextId (Nat.le_refl _)) id l

theorem Step.size_le {e : Event} (h : Step s e t) : s.size ≤ t.size := by
  cases h with
  | reserved | documented => exact Nat.le_refl _
  | @inserted node known => exact size_le_putLink (s.advance 1) ⟨node, s.nextId⟩
  | applied written => exact written.size_le

/-- A batch is checked before it is written, and a single link takes the next id, so that nothing
which is stored is written over. -/
theorem Step.grows {e : Event} (h : Step s e t) (hs : s.Ahead) (hroom : s.HasRoom e.asked) :
    Grows s [e] t where
  links := by
    cases h with
    | reserved | documented => exact fun h => h
    | @inserted node known => exact fun h => (hs.links_inserted node _ _).mpr (.inl h)
    | applied written => exact fun h => (written.links _ _).mpr (.inl h)
  strings := by
    cases h with
    | reserved | inserted | documented => exact fun h => h
    | applied written => exact fun h => (written.strings _ _).mpr (.inl h)
  documents := h.trail.documents
  names := h.names
  nextId := h.nextId hroom ▸ Nat.le_add_right _ _
  size := h.size_le

theorem Trail.grows (h : Trail s es t) (hs : s.Ahead) (hroom : s.HasRoom (asked es)) :
    Grows s es t := by
  induction h with
  | nil s => exact Grows.refl s
  | cons step _ ih =>
      rw [asked_cons] at hroom
      exact (step.grows hs hroom.left).trans (ih (step.ahead hs hroom.left) (step.room hroom))

theorem Step.hasLink {e : Event} (h : Step s e t) {id : LinkId} (hid : s.hasLink id = true) :
    t.hasLink id = true := by
  cases h with
  | reserved | documented => exact hid
  | inserted known => exact hasLink_putLink_of_hasLink (s := s.advance 1) _ hid
  | applied written => exact (written.hasLink_iff id).mpr (.inl hid)

theorem Trail.hasLink (h : Trail s es t) {id : LinkId} (hid : s.hasLink id = true) :
    t.hasLink id = true := by
  induction h with
  | nil => exact hid
  | cons step _ ih => exact ih (step.hasLink hid)

theorem Trail.strings (h : Trail s es t) (hbatch : ∀ batch, .applied batch ∉ es) :
    t.strings = s.strings := by
  induction h with
  | nil => rfl
  | cons step _ ih =>
      simp only [List.mem_cons, not_or] at hbatch
      rw [ih fun batch => (hbatch batch).2]
      cases step with
      | reserved | inserted | documented => rfl
      | applied => exact absurd rfl (hbatch _).1

section Links

variable {e : Event} {id : LinkId} {l : Link} {node : Node}

theorem Step.links (h : Step s e t) (hs : s.Ahead) (hbatch : ∀ batch, e ≠ .applied batch) :
    t.links[id]? = some l ↔ s.links[id]? = some l ∨ l.id = id ∧ .inserted id l.toNode = e := by
  cases h with
  | reserved | documented => simp [advance, putDocument]
  | @inserted node known =>
      rw [hs.links_inserted, Event.inserted.injEq]
      obtain ⟨node', key⟩ := l
      rw [Link.mk.injEq]
      refine or_congr_right ⟨?_, ?_⟩
      · rintro ⟨rfl, rfl, rfl⟩
        exact ⟨rfl, rfl, rfl⟩
      · rintro ⟨rfl, rfl, rfl⟩
        exact ⟨rfl, rfl, rfl⟩
  | applied => exact absurd rfl (hbatch _)

theorem Trail.links (h : Trail s es t) (hs : s.Ahead) (hroom : s.HasRoom (asked es))
    (hbatch : ∀ batch, .applied batch ∉ es) :
    t.links[id]? = some l ↔ s.links[id]? = some l ∨ l.id = id ∧ .inserted id l.toNode ∈ es := by
  induction h with
  | nil => simp
  | cons step _ ih =>
      rw [asked_cons] at hroom
      simp only [List.mem_cons, not_or] at hbatch
      rw [ih (step.ahead hs hroom.left) (step.room hroom) fun batch => (hbatch batch).2,
        step.links hs fun batch heq => (hbatch batch).1 heq.symm, List.mem_cons, or_assoc,
        and_or_left]

theorem Trail.inserted_fresh (h : Trail s es t) (hs : s.Ahead) (hroom : s.HasRoom (asked es))
    (hmem : .inserted id node ∈ es) : s.hasLink id = false := by
  induction h with
  | nil => cases hmem
  | cons step _ ih =>
      rw [asked_cons] at hroom
      rcases List.mem_cons.mp hmem with rfl | hmem
      · cases step
        exact hs.fresh_nextId (Nat.le_refl _)
      · rw [Bool.eq_false_iff]
        intro hid
        have hfresh := ih (step.ahead hs hroom.left) (step.room hroom) hmem
        exact Bool.false_ne_true (hfresh.symm.trans (step.hasLink hid))

end Links

theorem Trail.exists_document (h : Trail s es t) {id : LinkId} {value : Json}
    (hmem : .documented id value ∈ es) :
    ∃ last, .documented id last ∈ es ∧ t.documents[id]? = some last := by
  induction h generalizing value with
  | nil => cases hmem
  | @cons s u t e es step rest ih =>
      by_cases hlater : ∃ later, .documented id later ∈ es
      · obtain ⟨later, hlater⟩ := hlater
        obtain ⟨last, hlast, hdocument⟩ := ih hlater
        exact ⟨last, List.mem_cons_of_mem _ hlast, hdocument⟩
      · rcases List.mem_cons.mp hmem with rfl | hmem
        · refine ⟨value, List.mem_cons_self, ?_⟩
          rw [rest.document_of_notMem (not_exists.mp hlater)]
          cases step
          simp [putDocument]
        · exact absurd ⟨value, hmem⟩ hlater

/-- The second store holds what the first one does and the new links and documents of the events
between them, and nothing else. -/
structure Extends (s : Store) (es : List Event) (t : Store) : Prop where
  links : ∀ id l,
    t.links[id]? = some l ↔ s.links[id]? = some l ∨ l.id = id ∧ .inserted id l.toNode ∈ es
  documents : ∀ id j,
    t.documents[id]? = some j ↔ s.documents[id]? = some j ∨ .documented id j ∈ es
  fresh : ∀ id node, .inserted id node ∈ es → s.hasLink id = false
  strings : t.strings = s.strings
  names : t.names = s.names

theorem Trail.extended (h : Trail s es t) (hs : s.Sound) (hroom : s.HasRoom (asked es))
    (hbatch : ∀ batch, .applied batch ∉ es)
    (hown : ∀ id value, .documented id value ∈ es → ∃ node, .inserted id node ∈ es)
    (honce : ∀ id value value', .documented id value ∈ es → .documented id value' ∈ es →
      value = value') : Extends s es t where
  links _ _ := h.links hs.ahead hroom hbatch
  documents id j := by
    constructor
    · intro hj
      rcases h.documents id with hkept | ⟨value, hmem, hvalue⟩
      · exact .inl (hkept.symm.trans hj)
      · obtain rfl := Option.some.inj (hvalue.symm.trans hj)
        exact .inr hmem
    · rintro (hj | hmem)
      · refine (h.document_of_notMem fun value hmem => ?_).trans hj
        obtain ⟨node, hnode⟩ := hown id value hmem
        have hfresh := h.inserted_fresh hs.ahead hroom hnode
        exact Bool.false_ne_true (hfresh.symm.trans (hs.documents hj))
      · obtain ⟨last, hlast, hdocument⟩ := h.exists_document hmem
        rw [hdocument, honce id last j hlast hmem]
  fresh _ _ hmem := h.inserted_fresh hs.ahead hroom hmem
  strings := h.strings hbatch
  names := h.names

end LinkGraph.Store
