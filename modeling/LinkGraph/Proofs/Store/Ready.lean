import LinkGraph.Proofs.Plan.Grounded
import LinkGraph.Proofs.Store.Fitting

namespace LinkGraph.Store

/-- A store in which the kinds of a site are stored and the given ids are free to be inserted. -/
structure Ready (site : Site) (ids : List LinkId) (s : Store) : Prop where
  closed : Closed s
  kinds : ∀ kind, s.hasLink (site.kinds.get kind) = true
  nodup : ids.Nodup
  free : ∀ id ∈ ids, s.hasLink id = false
  below : ∀ id ∈ ids, id < s.nextId

variable {site : Site} {s : Store} {ids : List LinkId}

theorem Ready.string?_eq_none (h : Ready site ids s) {id : LinkId} (hid : id ∈ ids) :
    s.string? id = none := by
  rw [Option.eq_none_iff_forall_ne_some]
  intro text htext
  exact Bool.false_ne_true ((h.free id hid).symm.trans (h.closed.strings htext))

/-- The batch of a forest can be written when its ids are free and its container is stored. Its
first node may also be its container. -/
theorem Ready.writes {f : Forest Numbered} {parent : Option LinkId} (h : Ready site f.ids s)
    (hparent : ∀ x ∈ parent, s.hasLink x = true)
    (hcontainer : s.hasLink site.container = true ∨ f.nodes.head? = some site.container) :
    ∃ t, Written s (f.batch site parent) t := by
  have hvalued := f.valued_sublist site parent
  refine exists_written (f.grounded_batch h.kinds hparent hcontainer) ?_ ?_ ?_ ?_
  · rw [f.inserted_batch]
    exact h.nodup
  · rw [f.inserted_batch]
    exact fun id hid => ⟨h.below id hid, h.free id hid⟩
  · exact h.nodup.sublist hvalued
  · exact fun target hmem => h.string?_eq_none (hvalued.subset hmem)

theorem exists_written_batch_iff (site : Site) (hs : Closed s)
    (hkinds : ∀ kind, s.hasLink (site.kinds.get kind) = true)
    (hcontainer : s.hasLink site.container = true) {f : Forest Numbered}
    (drawn : f.ids = ids.reverse) :
    (∃ t, Written s (f.batch site none) t) ↔
      ids.Nodup ∧ ∀ id ∈ ids, s.hasLink id = false ∧ id < s.nextId := by
  have hmem : ∀ id, id ∈ ids ↔ id ∈ f.ids := by simp [drawn]
  rw [← List.nodup_reverse, ← drawn]
  simp only [hmem]
  constructor
  · rintro ⟨t, hwritten⟩
    rw [← f.inserted_batch site none]
    exact ⟨hwritten.nodup_inserted, fun id hid => hwritten.inserted_fresh hid⟩
  · rintro ⟨hnodup, hfree⟩
    have hready : Ready site f.ids s :=
      ⟨hs, hkinds, hnodup, fun id hid => (hfree id hid).1, fun id hid => (hfree id hid).2⟩
    exact hready.writes (by simp) (.inl hcontainer)

end LinkGraph.Store
