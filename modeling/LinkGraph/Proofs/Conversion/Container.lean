import LinkGraph.Proofs.Conversion.Settled
import LinkGraph.Proofs.Session.Reachable
import LinkGraph.Proofs.Store.Ready

namespace LinkGraph

theorem KindTable.ofLookup_eq_ok {ε : Type} {lookup : Kind → Except ε LinkId} {table : KindTable}
    (h : KindTable.ofLookup lookup = .ok table) (kind : Kind) :
    lookup kind = .ok (table.get kind) := by
  obtain ⟨type, htype, h⟩ := Conversion.bind_eq_ok.mp h
  obtain ⟨contain, hcontain, h⟩ := Conversion.bind_eq_ok.mp h
  obtain ⟨required, hrequired, h⟩ := Conversion.bind_eq_ok.mp h
  obtain ⟨value, hvalue, h⟩ := Conversion.bind_eq_ok.mp h
  obtain ⟨string, hstring, h⟩ := Conversion.bind_eq_ok.mp h
  obtain ⟨number, hnumber, h⟩ := Conversion.bind_eq_ok.mp h
  obtain ⟨object, hobject, h⟩ := Conversion.bind_eq_ok.mp h
  obtain rfl := Except.ok.inj h
  cases kind <;> assumption

namespace Session

variable {session : Session} {s : Store}

theorem Reachable.hasLink_of_resolve (hs : session.Reachable s) {scope name : String} {id : LinkId}
    (h : Store.Memory.resolve s scope name = .ok id) : s.hasLink id = true := by
  rw [Store.Memory.resolve, hs.names] at h
  cases hlookup : Store.fresh.names.lookup ⟨scope, name⟩ with
  | none => rw [hlookup] at h; cases h
  | some id' =>
      rw [hlookup] at h
      obtain rfl := Except.ok.inj h
      obtain ⟨before, rear, hnames, -⟩ := List.lookup_eq_some_iff.mp hlookup
      have hfresh : Store.fresh.names =
          Kind.all.map fun kind => (⟨coreScope, kind.name⟩, KindTable.core.get kind) := rfl
      have hmem : (⟨scope, name⟩, id') ∈ Store.fresh.names := hnames ▸ by simp
      rw [hfresh] at hmem
      obtain ⟨kind, -, heq⟩ := List.mem_map.mp hmem
      cases heq
      exact hs.closed.core kind

theorem Reachable.kinds_stored (hs : session.Reachable s) {scope : String} {kinds : KindTable}
    (hk : s.kindsIn scope = .ok kinds) (kind : Kind) : s.hasLink (kinds.get kind) = true :=
  hs.hasLink_of_resolve (KindTable.ofLookup_eq_ok hk kind)

end Session

namespace Forest

theorem container_of_written {s s' : Store} {site : Site} {parent : Option LinkId}
    {f : Forest Numbered} {root : LinkId} (hroot : f.nodes.head? = some root)
    (h : Store.Written s (f.batch site parent) s') :
    s.hasLink site.container = true ∨ site.container = root := by
  cases f with
  | nil => cases hroot
  | cons a below next =>
      obtain rfl := Option.some.inj hroot
      obtain ⟨⟩ | ⟨-, ⟨⟩ | ⟨admits, -⟩⟩ := h
      have hcontainer := admits.1 site.container (Node.mem_references.mpr (.inr ⟨.source, rfl⟩))
      have hstored : a.type = site.container ∨ s.hasLink site.container = true := by
        simpa using (Store.hasLink_putLink _ _ _).symm.trans hcontainer
      exact hstored.symm.imp_right Eq.symm

theorem head_contained {s s' : Store} {site : Site} {parent : Option LinkId}
    {f : Forest Numbered} {root : LinkId} (hroot : f.nodes.head? = some root)
    (h : Store.Written s (f.batch site parent) s') :
    ∃ edge, s'.link? edge =
      some ⟨⟨site.kinds.get .contain, some site.container, some root⟩, edge⟩ := by
  cases f with
  | nil => cases hroot
  | cons a below next =>
      obtain rfl := Option.some.inj hroot
      exact ⟨a.typeEdge, (h.links _ ⟨(a.typeHeld parent).edgeNode site, a.typeEdge⟩).mpr
        (.inr ⟨rfl, List.mem_cons_of_mem _ List.mem_cons_self⟩)⟩

end Forest

namespace Conversion

theorem head?_reverse_range' {first count : Nat} (h : 0 < count) :
    (List.range' first count).reverse.head? = some (first + (count - 1)) := by
  rw [List.head?_reverse, List.getLast?_range', if_neg (Nat.ne_of_gt h), Nat.add_sub_assoc h]

theorem preview_rooted {schema : Schema} (h : 0 < schema.demand) (first : LinkId) (site : Site) :
    ∃ f : Forest Numbered, f.ids = (List.range' first schema.demand).reverse ∧
      f.nodes.head? = some (first + (schema.demand - 1)) ∧
      (f.batch site none).length = 3 * schema.demand / 2 ∧
      Plan.preview schema first site =
        .ok ⟨some (first + (schema.demand - 1)), f.batch site none⟩ := by
  obtain ⟨f, -, hids, hpreview⟩ := Plan.preview_done schema first site
  have hroot : f.nodes.head? = some (first + (schema.demand - 1)) := by
    rw [f.head?_nodes, hids, head?_reverse_range' h]
  have hlength := f.length_batch site none
  rw [hids, List.length_reverse, List.length_range'] at hlength
  refine ⟨f, hids, hroot, by omega, ?_⟩
  rw [hpreview, hroot]

theorem ready_reserved {session : Session} {s : Store} (hs : session.Reachable s) {scope : String}
    {site : Site} (hkinds : s.kindsIn scope = .ok site.kinds) {count : Nat}
    (hfree : ∀ id ∈ List.range' s.nextId count, s.hasLink id = false) :
    Store.Ready site (List.range' s.nextId count).reverse
      { s with nextId := s.nextId + count } where
  closed := hs.closed.nextId _
  kinds := hs.kinds_stored hkinds
  nodup := List.nodup_reverse.mpr List.nodup_range'
  free id hid := hfree id (List.mem_reverse.mp hid)
  below id hid := by
    rw [List.mem_reverse, List.mem_range'_1] at hid
    exact hid.2

/-- A container that is not stored is refused with the batch, unless its id is the one that the root
of the schema takes: then the root is stored, and contained in itself. There may also be too few ids
before the next one comes round, or links on them from before it did. -/
theorem unknown_container_settled {session : Session} {s : Store} (hs : session.Reachable s)
    {scope : String} {trigger : LinkId} {schema : Schema} {configuration : Configuration}
    {kinds : KindTable} (hschema : s.schemaAt session.backend trigger = some schema)
    (hdemand : 0 < schema.demand)
    (hconfiguration : s.configurationAt session.backend trigger = some configuration)
    (hkinds : s.kindsIn scope = .ok kinds)
    (hunknown : s.hasLink configuration.container = false) :
    let result := (convert session.access scope trigger s).1.result
    let s' := (convert session.access scope trigger s).2
    let root := s.nextId + (schema.demand - 1)
    if ¬s.HasRoom schema.demand then
      (∃ e, result = .error e ∧ e.code = "pool_mismatch") ∧
        s'.links = s.links ∧ s'.strings = s.strings
    else if configuration.container = root ∧
        ∀ id ∈ List.range' s.nextId schema.demand, s.hasLink id = false then
      result = .ok ⟨some root, root, schema.demand, 3 * schema.demand / 2⟩ ∧
        ∃ edge, s'.link? edge = some ⟨⟨kinds.get .contain, some root, some root⟩, edge⟩
    else
      (∃ e, result = .error e ∧ e.code = "batch_application_failed") ∧
        s'.links = s.links ∧ s'.strings = s.strings := by
  intro result s' root
  obtain ⟨j, hd, rfl⟩ := Option.map_eq_some_iff.mp hschema
  have hsettled : Settled session.backend s (Schema.ofJson j) ⟨configuration.container, kinds⟩
      result s' := convert_settled hconfiguration hd (isNull_of_demand hdemand) hkinds
  obtain ⟨f, hids, hroot, hlength, hpreview⟩ :=
    preview_rooted hdemand s.nextId ⟨configuration.container, kinds⟩
  have hmem : ∀ id, id ∈ f.ids ↔ id ∈ List.range' s.nextId (Schema.ofJson j).demand := by
    simp [hids]
  clear_value result s'
  cases hsettled with
  | unplanned short =>
      rw [if_pos short]
      exact ⟨⟨_, rfl, rfl⟩, rfl, rfl⟩
  | committed room planned applied =>
      rw [if_neg (not_not_intro (room (Nat.ne_of_gt hdemand)))]
      cases hpreview.symm.trans planned
      have hwritten := Store.apply_eq_ok_iff_written.mp applied
      have hcontainer : configuration.container = root := by
        rcases f.container_of_written hroot hwritten with hstored | hroot
        · exact absurd (hstored.symm.trans hunknown) (by decide)
        · exact hroot
      have hfree : ∀ id ∈ List.range' s.nextId (Schema.ofJson j).demand, s.hasLink id = false := by
        intro id hid
        refine (hwritten.inserted_fresh ?_).1
        rw [f.inserted_batch]
        exact (hmem id).mpr hid
      have hcontained := f.head_contained hroot hwritten
      rw [if_pos ⟨hcontainer, hfree⟩]
      dsimp only at hcontained ⊢
      rw [hlength]
      rw [hcontainer] at hcontained ⊢
      exact ⟨rfl, hcontained⟩
  | refused room planned refused =>
      rw [if_neg (not_not_intro (room (Nat.ne_of_gt hdemand)))]
      cases hpreview.symm.trans planned
      rw [if_neg]
      · exact ⟨⟨_, rfl, rfl⟩, rfl, rfl⟩
      · rintro ⟨hcontainer, hfree⟩
        have hready : Store.Ready ⟨configuration.container, kinds⟩ f.ids
            { s with nextId := s.nextId + (Schema.ofJson j).demand } :=
          hids ▸ ready_reserved hs hkinds hfree
        obtain ⟨t, hwritten⟩ : ∃ t, Store.Written _ (f.batch _ none) t :=
          hready.writes (by simp) (.inr (hcontainer ▸ hroot))
        cases refused.symm.trans (Store.apply_eq_ok_iff_written.mpr hwritten)

theorem far_container_refused :
    let s := sampleStore (some 99)
    let s' := (convert (Store.access .memory) coreScope 10 s).2
    (∃ e, (convert (Store.access .memory) coreScope 10 s).1.result = .error e ∧
      e.code = "batch_application_failed") ∧ s'.links = s.links ∧ s'.strings = s.strings := by
  have hreachable : Session.Reachable ⟨.memory, false⟩ (sampleStore (some 99)) :=
    .run .fresh (.stage coreScope sampleSchema (some 99))
  have hschema : (sampleStore (some 99)).schemaAt .memory 10 =
      some (Schema.ofJson sampleSchema) := rfl
  have hconfiguration : (sampleStore (some 99)).configurationAt .memory 10 = some ⟨99, 3⟩ := rfl
  have hkinds : (sampleStore (some 99)).kindsIn coreScope = .ok .core := rfl
  exact unknown_container_settled hreachable hschema (by decide) hconfiguration hkinds rfl

theorem root_container_commits :
    (sampleStore (some 20)).hasLink 20 = false ∧
      (convert (Store.access .memory) coreScope 10 (sampleStore (some 20))).1.result =
        .ok ⟨some 20, 20, 10, 15⟩ ∧
      (convert (Store.access .memory) coreScope 10 (sampleStore (some 20))).2.hasLink 20 = true :=
  ⟨rfl, rfl, rfl⟩

end Conversion

end LinkGraph
