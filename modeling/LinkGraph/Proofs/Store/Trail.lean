import LinkGraph.Proofs.Store.Accepted
import LinkGraph.Proofs.Store.Calls
import Mathlib.Algebra.GroupWithZero.Nat

namespace LinkGraph

/-- A call that changed a store, with its answer. -/
inductive Event where
  | reserved (count : Nat) (ids : List LinkId)
  | inserted (id : LinkId) (node : Node)
  | applied (batch : Batch)
  | documented (id : LinkId) (value : Json)

namespace Event

def given : Event → List LinkId
  | .reserved _ ids => ids
  | .inserted id _ => [id]
  | .applied _ | .documented _ _ => []

def asked : Event → Nat
  | .reserved count _ => count
  | .inserted _ _ => 1
  | .applied _ | .documented _ _ => 0

def document? : Event → Option Json
  | .documented _ value => some value
  | .reserved _ _ | .inserted _ _ | .applied _ => none

end Event

def asked (es : List Event) : Nat := (es.map Event.asked).sum

@[simp] theorem asked_nil : asked [] = 0 := rfl

@[simp] theorem asked_cons (e : Event) (es : List Event) :
    asked (e :: es) = e.asked + asked es := rfl

@[simp] theorem asked_append (es es' : List Event) : asked (es ++ es') = asked es + asked es' := by
  simp [asked]

def givenBy (es : List Event) : List LinkId := es.flatMap Event.given

@[simp] theorem givenBy_append (es es' : List Event) :
    givenBy (es ++ es') = givenBy es ++ givenBy es' := List.flatMap_append

namespace Store

inductive Step : Store → Event → Store → Prop where
  | reserved (s : Store) (count : Nat) :
      Step s (.reserved count (s.idsAhead count)) (s.advance count)
  | inserted {s : Store} {node : Node} (known : ∀ x ∈ node.references, s.hasLink x = true) :
      Step s (.inserted s.nextId node) ((s.advance 1).putLink ⟨node, s.nextId⟩)
  | applied {s s' : Store} {batch : Batch} (written : Written s batch s') :
      Step s (.applied batch) s'
  | documented {s : Store} {id : LinkId} (known : s.hasLink id = true) (value : Json) :
      Step s (.documented id value) (s.putDocument id value)

inductive Trail : Store → List Event → Store → Prop where
  | nil (s : Store) : Trail s [] s
  | cons {s t u : Store} {e : Event} {es : List Event} (step : Step s e t) (rest : Trail t es u) :
      Trail s (e :: es) u

theorem Trail.append {s t u : Store} {es es' : List Event} (h : Trail s es t)
    (h' : Trail t es' u) : Trail s (es ++ es') u := by
  induction h with
  | nil => exact h'
  | cons step _ ih => exact .cons step (ih h')

theorem Trail.exists_between {s u : Store} {es es' : List Event} (h : Trail s (es ++ es') u) :
    ∃ t, Trail s es t ∧ Trail t es' u := by
  induction es generalizing s with
  | nil => exact ⟨s, .nil s, h⟩
  | cons e es ih =>
      obtain _ | ⟨step, rest⟩ := h
      obtain ⟨t, hes, hes'⟩ := ih rest
      exact ⟨t, .cons step hes, hes'⟩

theorem Step.trail {s t : Store} {e : Event} (h : Step s e t) : Trail s [e] t := .cons h (.nil t)

variable {backend : Backend} {s t : Store} {e : Event} {es : List Event}

theorem step_reserve {count : Nat} {ids : List LinkId}
    (h : s.reserve backend count = .ok (ids, t)) : Step s (.reserved count ids) t := by
  obtain ⟨-, rfl, rfl⟩ := reserve_eq_ok h
  exact .reserved s count

theorem step_insertLink {node : Node} {id : LinkId}
    (h : s.insertLink backend node = .ok (id, t)) : Step s (.inserted id node) t := by
  obtain ⟨known, rfl, rfl⟩ := insertLink_eq_ok h
  exact .inserted known

theorem step_apply {batch : Batch} (h : s.apply backend batch = .ok t) :
    Step s (.applied batch) t :=
  .applied (apply_eq_ok_iff_written.mp h)

theorem step_setDocument {id : LinkId} {value : Json}
    (h : s.setDocument backend id value = .ok t) : Step s (.documented id value) t := by
  obtain ⟨known, rfl⟩ := setDocument_eq_ok h
  exact .documented known value

theorem Step.closed (h : Step s e t) (hs : Closed s) : Closed t := by
  cases h with
  | reserved count => exact hs.nextId _
  | inserted known => exact closed_putLink (hs.nextId _) known
  | applied written => exact closed_written hs written
  | documented known value => exact closed_putDocument hs known value

theorem Trail.closed (h : Trail s es t) (hs : Closed s) : Closed t := by
  induction h with
  | nil => exact hs
  | cons step _ ih => exact ih (step.closed hs)

theorem Step.names (h : Step s e t) : t.names = s.names := by
  cases h with
  | reserved | inserted | documented => rfl
  | applied written => exact written.names

theorem Trail.names (h : Trail s es t) : t.names = s.names := by
  induction h with
  | nil => rfl
  | cons step _ ih => exact ih.trans step.names

theorem Step.given_of_lt (h : Step s e t) {id : LinkId} (hid : id < t.nextId) :
    id < s.nextId ∨ id ∈ e.given := by
  by_cases hold : id < s.nextId
  · exact .inl hold
  · have hle : s.nextId ≤ id := Nat.le_of_not_lt hold
    cases h with
    | reserved count => exact .inr (mem_idsAhead.mpr ⟨hle, hid⟩)
    | inserted known =>
        have hlt : id < s.nextId + 1 := Nat.lt_of_lt_of_le hid (Nat.mod_le _ _)
        exact .inr (List.mem_singleton.mpr (Nat.le_antisymm (Nat.le_of_lt_succ hlt) hle))
    | applied written => exact absurd (written.nextId ▸ hid) hold
    | documented known value => exact absurd hid hold

theorem Trail.given_of_lt (h : Trail s es t) {id : LinkId} (hid : id < t.nextId) :
    id < s.nextId ∨ id ∈ givenBy es := by
  induction h with
  | nil => exact .inl hid
  | cons step _ ih =>
      rw [givenBy, List.flatMap_cons, List.mem_append]
      rcases ih hid with hlt | hmem
      · exact (step.given_of_lt hlt).imp_right .inl
      · exact .inr (.inr hmem)

theorem Step.given_of_hasLink (h : Step s e t) {id : LinkId} (hid : t.hasLink id = true) :
    s.hasLink id = true ∨ id < s.nextId ∨ id ∈ e.given := by
  cases h with
  | reserved | documented => exact .inl hid
  | inserted known =>
      rw [hasLink_putLink, Bool.or_eq_true, decide_eq_true_eq] at hid
      rcases hid with hid | hid
      · exact .inr (.inr (List.mem_singleton.mpr hid.symm))
      · exact .inl hid
  | applied written =>
      rcases (written.hasLink_iff id).mp hid with hid | hmem
      · exact .inl hid
      · exact .inr (.inl (written.inserted_fresh hmem).2)

theorem Trail.given_of_hasLink (h : Trail s es t) {id : LinkId} (hid : t.hasLink id = true) :
    s.hasLink id = true ∨ id < s.nextId ∨ id ∈ givenBy es := by
  induction h with
  | nil => exact .inl hid
  | cons step _ ih =>
      rw [givenBy, List.flatMap_cons, List.mem_append]
      rcases ih hid with hlink | hlt | hmem
      · exact (step.given_of_hasLink hlink).imp_right (Or.imp_right .inl)
      · exact .inr ((step.given_of_lt hlt).imp_right .inl)
      · exact .inr (.inr (.inr hmem))

section Room

/-! As long as the next id does not come round, ids are given out one after the other. -/

theorem Step.nextId (h : Step s e t) (hroom : s.HasRoom e.asked) :
    t.nextId = s.nextId + e.asked := by
  cases h with
  | reserved count => exact nextId_advance hroom
  | inserted known => exact nextId_advance hroom
  | applied written => exact written.nextId
  | documented known value => rfl

theorem Step.given (h : Step s e t) (hroom : s.HasRoom e.asked) :
    e.given = List.range' s.nextId e.asked := by
  cases h with
  | reserved count => exact idsAhead_of_room hroom
  | inserted known => rfl
  | applied written => rfl
  | documented known value => rfl

theorem HasRoom.left {n m : Nat} (h : s.HasRoom (n + m)) : s.HasRoom n :=
  Nat.lt_of_le_of_lt (Nat.add_le_add_left (Nat.le_add_right n m) _) h

theorem Step.room (h : Step s e t) {n : Nat} (hroom : s.HasRoom (e.asked + n)) : t.HasRoom n := by
  rw [HasRoom, h.nextId hroom.left, Nat.add_assoc]
  exact hroom

theorem Trail.nextId (h : Trail s es t) (hroom : s.HasRoom (asked es)) :
    t.nextId = s.nextId + asked es := by
  induction h with
  | nil => rfl
  | cons step _ ih =>
      rw [asked_cons] at hroom ⊢
      rw [ih (step.room hroom), step.nextId hroom.left, Nat.add_assoc]

theorem Trail.room (h : Trail s es t) {n : Nat} (hroom : s.HasRoom (asked es + n)) :
    t.HasRoom n := by
  rw [HasRoom, h.nextId hroom.left, Nat.add_assoc]
  exact hroom

theorem Trail.given (h : Trail s es t) (hroom : s.HasRoom (asked es)) :
    givenBy es = List.range' s.nextId (asked es) := by
  induction h with
  | nil => rfl
  | cons step _ ih =>
      rw [asked_cons] at hroom ⊢
      rw [givenBy, List.flatMap_cons, ← givenBy, step.given hroom.left, ih (step.room hroom),
        step.nextId hroom.left, List.range'_append_1]

theorem Step.ahead (h : Step s e t) (hs : s.Ahead) (hroom : s.HasRoom e.asked) : t.Ahead := by
  intro id hid
  rw [h.nextId hroom]
  rcases h.given_of_hasLink hid with hlink | hlt | hmem
  · exact Nat.lt_add_right _ (hs hlink)
  · exact Nat.lt_add_right _ hlt
  · rw [h.given hroom, List.mem_range'_1] at hmem
    exact hmem.2

theorem Step.sound (h : Step s e t) (hs : Sound s) (hroom : s.HasRoom e.asked) : Sound t :=
  ⟨h.closed hs.toClosed, h.ahead hs.ahead hroom⟩

theorem Trail.ahead (h : Trail s es t) (hs : s.Ahead) (hroom : s.HasRoom (asked es)) : t.Ahead := by
  induction h with
  | nil => exact hs
  | cons step _ ih =>
      rw [asked_cons] at hroom
      exact ih (step.ahead hs hroom.left) (step.room hroom)

theorem Trail.sound (h : Trail s es t) (hs : Sound s) (hroom : s.HasRoom (asked es)) : Sound t :=
  ⟨h.closed hs.toClosed, h.ahead hs.ahead hroom⟩

theorem Trail.reserved_fresh {count : Nat} {ids : List LinkId}
    (h : Trail s (es ++ [.reserved count ids]) t) (hs : s.Ahead)
    (hroom : s.HasRoom (asked (es ++ [.reserved count ids]))) :
    ∀ id ∈ ids, t.hasLink id = false := by
  rw [asked_append] at hroom
  obtain ⟨u, hes, hlast⟩ := h.exists_between
  obtain _ | ⟨step, ⟨⟩⟩ := hlast
  cases step with
  | reserved =>
      intro id hid
      exact (hes.ahead hs hroom.left).fresh_nextId (mem_idsAhead.mp hid).1

end Room

end Store

end LinkGraph
