import LinkGraph.Proofs.Store.Written
import Mathlib.Data.List.Basic

namespace LinkGraph.Store

/-- What holds of every store that calls lead to. -/
structure Closed (s : Store) : Prop where
  keyed : ∀ {id : LinkId} {l : Link}, s.links[id]? = some l → l.id = id
  closed : ∀ {id : LinkId} {l : Link}, s.links[id]? = some l →
    ∀ x ∈ l.references, s.hasLink x = true
  strings : ∀ {id : LinkId} {text : String}, s.strings[id]? = some text → s.hasLink id = true
  documents : ∀ {id : LinkId} {j : Json}, s.documents[id]? = some j → s.hasLink id = true
  core : ∀ kind, s.hasLink (KindTable.core.get kind) = true
  names : ∀ kind, s.names.lookup ⟨coreScope, Kind.name kind⟩ = some (KindTable.core.get kind)

/-- All links stand below the next id. That is so until the next id comes round. -/
def Ahead (s : Store) : Prop := ∀ ⦃id⦄, s.hasLink id = true → id < s.nextId

structure Sound (s : Store) : Prop extends Closed s where
  ahead : s.Ahead

variable {s s' : Store}

theorem Closed.nodeClosed (h : Closed s) {id : LinkId} {node : Node}
    (hnode : s.node? id = some node) : ∀ x ∈ node.references, s.hasLink x = true := by
  obtain ⟨l, hl, rfl⟩ := node?_eq_some_iff.mp hnode
  exact h.closed hl

theorem Ahead.fresh_nextId (h : Ahead s) {id : LinkId} (hid : s.nextId ≤ id) :
    s.hasLink id = false := by
  rw [Bool.eq_false_iff]
  intro hlink
  exact Nat.not_lt.mpr hid (h hlink)

theorem hasLink_write (op : Operation) {id : LinkId} (h : s.hasLink id = true) :
    (s.write op).hasLink id = true := hasLink_write_iff.mpr (.inl h)

theorem closed_write {op : Operation} (h : Closed s) (admits : s.Admits op) :
    Closed (s.write op) where
  keyed {id l} hl := by
    rcases (links_write admits id l).mp hl with hl | ⟨hid, -⟩
    · exact h.keyed hl
    · exact hid
  closed {id l} hl x hx := by
    rcases (links_write admits id l).mp hl with hl | ⟨-, rfl⟩
    · exact hasLink_write op (h.closed hl x hx)
    · exact hasLink_write _ (admits.1 x hx)
  strings {id text} htext := by
    rcases (strings_write admits id text).mp htext with htext | rfl
    · exact hasLink_write op (h.strings htext)
    · exact hasLink_write _ (admits.1 id List.mem_cons_self)
  documents {id j} hj := by
    rw [documents_write] at hj
    exact hasLink_write op (h.documents hj)
  core kind := hasLink_write op (h.core kind)
  names kind := by
    rw [names_write]
    exact h.names kind

theorem closed_written {batch : Batch} (h : Closed s) (hw : Written s batch s') : Closed s' := by
  induction hw with
  | nil => exact h
  | cons admits _ ih => exact ih (closed_write h admits)

theorem Closed.nextId (h : Closed s) (n : LinkId) : Closed { s with nextId := n } := { h with }

theorem hasLink_putLink_of_hasLink (l : Link) {id : LinkId} (h : s.hasLink id = true) :
    (s.putLink l).hasLink id = true := by
  rw [hasLink_putLink, h, Bool.or_true]

theorem closed_putLink (h : Closed s) {l : Link} (known : ∀ x ∈ l.references, s.hasLink x = true) :
    Closed (s.putLink l) := by
  have hlinks : ∀ {id : LinkId} {l' : Link}, (s.putLink l).links[id]? = some l' →
      s.links[id]? = some l' ∨ l.id = id ∧ l = l' := by
    intro id l' hl'
    rw [putLink, Std.ExtTreeMap.getElem?_insert] at hl'
    split at hl'
    · next hid => exact .inr ⟨Std.compare_eq_iff_eq.mp hid, Option.some.inj hl'⟩
    · exact .inl hl'
  refine ⟨fun hl' => ?_, fun hl' x hx => ?_, fun h' => ?_, fun h' => ?_, fun kind => ?_, h.names⟩
  · rcases hlinks hl' with hl' | ⟨hid, rfl⟩
    · exact h.keyed hl'
    · exact hid
  · refine hasLink_putLink_of_hasLink l ?_
    rcases hlinks hl' with hl' | ⟨-, rfl⟩
    · exact h.closed hl' x hx
    · exact known x hx
  · exact hasLink_putLink_of_hasLink l (h.strings h')
  · exact hasLink_putLink_of_hasLink l (h.documents h')
  · exact hasLink_putLink_of_hasLink l (h.core kind)

theorem closed_putDocument {id : LinkId} (h : Closed s) (hid : s.hasLink id = true) (value : Json) :
    Closed (s.putDocument id value) := by
  refine { h with documents := ?_ }
  intro x j hj
  by_cases hx : id = x
  · exact hx ▸ hid
  · refine h.documents (j := j) ?_
    simpa [putDocument, Std.ExtTreeMap.getElem?_insert, hx] using hj

theorem insertIfNew_of_contains {m : Std.ExtTreeMap LinkId α} {id : LinkId} (a : α)
    (h : m.contains id = true) : m.insertIfNew id a = m := by
  refine Std.ExtTreeMap.ext_getElem? fun x => ?_
  rw [Std.ExtTreeMap.getElem?_insertIfNew, if_neg]
  rintro ⟨hx, hnew⟩
  exact hnew (Std.ExtTreeMap.contains_iff_mem.mp h)

theorem rows_addKind (h : Closed s) (kind : Kind) : s.rows.addKind kind = s.rows := by
  have hcore : s.rows.links.contains (KindTable.core.get kind) = true := h.core kind
  have hname : (s.rows.names.lookup ⟨coreScope, kind.name⟩).isSome = true :=
    Option.isSome_iff_exists.mpr ⟨_, h.names kind⟩
  rw [Rows.addKind, insertIfNew_of_contains _ hcore, if_pos hname]

/-- Whatever a store has come to, opening what it leaves behind adds nothing to it. -/
theorem Closed.opened_rows (h : Closed s) : opened s.rows = s := by
  have hkinds : Kind.all.foldl Rows.addKind s.rows = s.rows :=
    List.foldl_fixed' (rows_addKind h) Kind.all
  rw [opened, Rows.bootstrap, hkinds]
  rfl

theorem links_fresh {id : LinkId} {l : Link} (h : fresh.links[id]? = some l) :
    id ∈ KindTable.core.ids ∧ l = ⟨⟨KindTable.core.type, none, none⟩, id⟩ := by
  have hlinks : fresh.links.toList =
      KindTable.core.ids.map fun id => (id, ⟨⟨KindTable.core.type, none, none⟩, id⟩) := by
    decide +kernel
  rw [← Std.ExtTreeMap.mem_toList_iff_getElem?_eq_some, hlinks, List.mem_map] at h
  obtain ⟨id', hid', heq⟩ := h
  cases heq
  exact ⟨hid', rfl⟩

theorem sound_fresh : Sound fresh := by
  refine ⟨⟨fun hl => ?_, fun hl x hx => ?_, nofun, nofun, fun kind => ?_, fun kind => ?_⟩, ?_⟩
  · rw [(links_fresh hl).2]
  · obtain ⟨-, rfl⟩ := links_fresh hl
    rw [List.mem_singleton.mp hx]
    rfl
  · cases kind <;> rfl
  · cases kind <;> rfl
  · intro id hid
    obtain ⟨node, hnode⟩ := hasLink_iff.mp hid
    obtain ⟨l, hl, -⟩ := node?_eq_some_iff.mp hnode
    have hcore : ∀ id ∈ KindTable.core.ids, id < fresh.nextId := by decide
    exact hcore id (links_fresh hl).1

end LinkGraph.Store
