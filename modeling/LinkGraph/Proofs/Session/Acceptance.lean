import LinkGraph.Proofs.Conversion.Gathered
import LinkGraph.Proofs.Store.Fitting
import LinkGraph.Session

namespace LinkGraph.Session

theorem answer_ofChange (f : α → Answer) (change : Store → Except StoreError (α × Store))
    (s : Store) :
    answer f (Access.ofChange change) s =
      match change s with
      | .ok (a, t) => (f a, t)
      | .error e => (.failed e, s) := by
  rw [answer, Access.run_ofChange]
  cases change s <;> rfl

theorem run_apply (session : Session) (s : Store) (batch : Batch) :
    session.run s (.apply batch) =
      match s.apply session.backend batch with
      | .ok s' => (.done, s')
      | .error e => (.failed e, s) := by
  refine (answer_ofChange _ (fun s => (s.apply session.backend batch).map ((), ·)) s).trans ?_
  cases s.apply session.backend batch <;> rfl

theorem run_setDocument (session : Session) (s : Store) (id : LinkId) (value : Json) :
    session.run s (.setDocument id value) =
      match s.setDocument session.backend id value with
      | .ok t => (.done, t)
      | .error e => (.failed e, s) := by
  refine (answer_ofChange _ (fun s => (s.setDocument session.backend id value).map ((), ·)) s).trans
    ?_
  cases s.setDocument session.backend id value <;> rfl

theorem run_fetch (session : Session) (s : Store) (anchor : LinkId) (side : End) :
    session.run s (.fetch anchor side) =
      match s.fetch session.backend anchor side with
      | .ok found => (.document found, s)
      | .error e => (.failed e, s) := by
  change answer _ ((Store.access session.backend).fetch anchor side) s = _
  rw [answer, Conversion.run_fetch]
  cases s.fetch session.backend anchor side <;> rfl

/-- The checks come one after the other and stop at the first fault, but together they say no more
and no less than `Fits`. A batch that passes them is added as a whole, and any other leaves the
store as it is. -/
theorem apply_done_iff_fits (session : Session) (s : Store) (batch : Batch) :
    let answer := (session.run s (.apply batch)).1
    let s' := (session.run s (.apply batch)).2
    (answer = .done ↔ s.Fits batch) ∧
    (s.Fits batch →
      (∀ id l, s'.links[id]? = some l ↔
        s.links[id]? = some l ∨ l.id = id ∧ .insertNode id l.toNode ∈ batch) ∧
      (∀ id text, s'.strings[id]? = some text ↔
        s.strings[id]? = some text ∨ .insertValue id text ∈ batch) ∧
      s'.documents = s.documents ∧ s'.names = s.names ∧ s'.nextId = s.nextId) ∧
    (¬s.Fits batch → (∃ e, answer = .failed e) ∧ s' = s) := by
  rw [run_apply]
  cases happly : s.apply session.backend batch with
  | ok t =>
      have hwritten := Store.apply_eq_ok_iff_written.mp happly
      refine ⟨iff_of_true rfl hwritten.fits, fun _ => ?_, fun hfits => ?_⟩
      · exact ⟨hwritten.links, hwritten.strings, hwritten.documents, hwritten.names,
          hwritten.nextId⟩
      · exact absurd hwritten.fits hfits
  | error e =>
      have hfits : ¬s.Fits batch := by
        intro h
        obtain ⟨t, hwritten⟩ := Store.fits_iff_written.mp h
        cases happly.symm.trans (Store.apply_eq_ok_iff_written.mpr hwritten)
      refine ⟨iff_of_false (fun h => nomatch h) hfits, fun h => absurd h hfits, fun _ => ?_⟩
      exact ⟨⟨e, rfl⟩, rfl⟩

end LinkGraph.Session
