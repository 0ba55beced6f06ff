import LinkGraph.Proofs.Conversion.Effect
import LinkGraph.Proofs.Session.Reachable
import LinkGraph.Proofs.Store.Planted

namespace LinkGraph

namespace Store

theorem kindsIn_core {s : Store} (h : Closed s) : s.kindsIn coreScope = .ok .core := by
  have hresolve : ∀ kind : Kind,
      Memory.resolve s coreScope kind.name = .ok (KindTable.core.get kind) := by
    intro kind
    rw [Memory.resolve, h.names kind]
  simp only [kindsIn, KindTable.ofLookup, hresolve]
  rfl

theorem planted_of_written {s s' : Store} {site : Site} {f : Forest Numbered} {n : Nat}
    (h : Closed s) (hkinds : Function.Injective site.kinds.get)
    (hids : f.ids = (List.range' s.nextId n).reverse)
    (hw : Written { s with nextId := s.nextId + n } (f.batch site none) s') :
    Planted site f s' := by
  have hfresh : ∀ x ∈ f.ids, s.hasLink x = false := by
    intro x hx
    rw [← f.inserted_batch site none] at hx
    exact (hw.inserted_fresh hx).1
  constructor
  · exact closed_written (h.nextId _) hw
  · exact hkinds
  · rw [hids, List.pairwise_reverse]
    exact List.pairwise_lt_range'
  · intro id node x hx href
    rw [hw.nodes]
    refine or_iff_right fun hold => ?_
    exact Bool.false_ne_true ((hfresh x hx).symm.trans (h.nodeClosed hold x href))
  · intro id text hid
    rw [hw.strings]
    refine or_iff_right fun hold => ?_
    exact Bool.false_ne_true ((hfresh id hid).symm.trans (h.strings hold))

end Store

namespace Conversion

/-- After a conversion the schema can be read off the store, from the reported root on, and nothing
else can. Nothing is asked of the container. -/
theorem converted_reads_back {session : Session} {s : Store} (hs : session.Reachable s)
    {trigger : LinkId} {report : Report}
    (h : (convert session.access coreScope trigger s).1.result = .ok report) :
    ∃ schema configuration,
      s.schemaAt session.backend trigger = some schema ∧
      s.configurationAt session.backend trigger = some configuration ∧
      (report.root = none ↔ schema.skeleton = .nil) ∧
      ∀ f, (convert session.access coreScope trigger s).2.ReadsAs
        ⟨configuration.container, .core⟩ none report.root.toList f ↔ f = schema.skeleton := by
  obtain ⟨m, plan, t, hgathers, hplan, hwritten, rfl⟩ := written_of_ok h
  obtain ⟨hc, hd, hk, -⟩ := hgathers.at_store
  obtain ⟨-, rfl, -, hpreview⟩ := hgathers.previewed hplan
  have hcore : m.kinds = .core := Except.ok.inj (hk.symm.trans (Store.kindsIn_core hs.closed))
  rw [hcore] at hpreview
  clear h
  obtain ⟨f, hentities, hids, hf⟩ :=
    Plan.preview_done m.schema s.nextId ⟨m.configuration.container, .core⟩
  rw [hf] at hpreview
  cases hpreview
  have hplanted := Store.planted_of_written hs.closed KindTable.get_core_injective hids hwritten
  have hconsistent : f.entities.Consistent := hentities ▸ m.schema.consistent_skeleton
  -- No mark is looked for at the root, and the root is never marked.
  have hmarks : ∀ b ∈ f.roots, false = b.mark.isSome := by
    intro b hb
    have hroot : b.entity ∈ m.schema.skeleton.roots := by
      rw [← hentities, Forest.entities, Forest.roots_map]
      exact List.mem_map_of_mem hb
    exact (Schema.roots_outline hroot).2.symm
  have hreads := hplanted.readsAs hconsistent (List.Subset.refl _) hmarks
  rw [hentities, Forest.nodes_single hentities] at hreads
  refine ⟨m.schema, m.configuration, hd, hc, ?_, fun g => ⟨fun hg => ?_, ?_⟩⟩
  · rw [← hentities, Forest.entities_eq_nil_iff]
    cases f <;> simp [Forest.nodes, Forest.roots]
  · exact hg.unique KindTable.get_core_injective hreads
  · rintro rfl
    exact hreads

theorem sample_reads_back :
    (convert (Store.access .memory) coreScope 11 (sampleStore none)).1.result =
        .ok ⟨some 21, 8, 10, 15⟩ ∧
      ∀ f, (convert (Store.access .memory) coreScope 11 (sampleStore none)).2.ReadsAs ⟨8, .core⟩
        none [21] f ↔
          f = .cons ⟨"Schema", .object, false⟩ (.leaf ⟨"name", .string, true⟩) .nil := by
  have hreachable : Session.Reachable ⟨.memory, false⟩ (sampleStore none) := .run .fresh _
  have h : (convert (Store.access .memory) coreScope 11 (sampleStore none)).1.result =
      .ok ⟨some 21, 8, 10, 15⟩ := rfl
  obtain ⟨schema, configuration, hschema, hconfiguration, -, hreads⟩ :=
    converted_reads_back hreachable h
  cases hschema
  cases hconfiguration
  exact ⟨h, hreads⟩

end Conversion

end LinkGraph
