import LinkGraph.Proofs.Conversion.Gathered
import LinkGraph.Session

namespace LinkGraph.Conversion

variable {backend : Store.Backend} {scope : String} {trigger : LinkId} {s s' : Store}

theorem Applies.at_store {batch : Batch} (h : Applies (Store.access backend) s batch s') :
    Store.Written s batch s' := by
  rw [Applies] at h
  split at h
  · next hempty =>
      rw [List.isEmpty_iff] at hempty
      subst h
      rw [hempty]
      exact .nil s'
  · rw [run_apply] at h
    cases happly : s.apply backend batch with
    | error e => rw [happly] at h; cases h
    | ok t =>
        rw [happly] at h
        obtain ⟨-, rfl⟩ := EStateM.Result.ok.inj h
        exact (Store.apply_eq_ok_iff.mp happly).2

theorem written_of_ok {report : Report}
    (h : (convert (Store.access backend) scope trigger s).1.result = .ok report) :
    ∃ m plan t, Gathers (Store.access backend) scope trigger s m t ∧ m.plan = .ok plan ∧
      Store.Written t plan.batch (convert (Store.access backend) scope trigger s).2 ∧
      report = ⟨plan.root, m.configuration.container, m.schema.demand, plan.batch.length⟩ := by
  obtain ⟨log, hcourse, -⟩ := convert_course (Store.access backend) scope trigger s
  rw [h] at hcourse
  generalize (convert (Store.access backend) scope trigger s).2 = s' at hcourse
  cases hcourse with
  | done gathers compiled applied => exact ⟨_, _, _, gathers, compiled, applied.at_store, rfl⟩

def sampleSchema : Json :=
  .obj [("type", .str "object"), ("properties", .obj [("name", .obj [("type", .str "string")])]),
    ("required", .arr [.str "name"])]

def sampleStore (container : Option LinkId) : Store :=
  (Session.run ⟨.memory, false⟩ .fresh (.stage coreScope sampleSchema container)).2

/-- A conversion that succeeds adds to the store exactly what the preview of its schema inserts,
all of it on ids without a link, and reports the preview. -/
theorem convert_adds_preview {report : Report}
    (h : (convert (Store.access backend) scope trigger s).1.result = .ok report) :
    ∃ schema configuration kinds plan,
      s.schemaAt backend trigger = some schema ∧
      s.configurationAt backend trigger = some configuration ∧
      s.kindsIn scope = .ok kinds ∧
      Plan.preview schema s.nextId ⟨configuration.container, kinds⟩ = .ok plan ∧
      let s' := (convert (Store.access backend) scope trigger s).2
      (∀ id l, s'.links[id]? = some l ↔
        s.links[id]? = some l ∨ l.id = id ∧ .insertNode id l.toNode ∈ plan.batch) ∧
      (∀ id ∈ plan.batch.inserted, s.hasLink id = false) ∧
      (∀ id text, s'.strings[id]? = some text ↔
        s.strings[id]? = some text ∨ .insertValue id text ∈ plan.batch) ∧
      s'.documents = s.documents ∧ s'.names = s.names ∧
      s'.nextId = s.nextId + schema.demand ∧
      report.reserved = schema.demand ∧
      report.operations = plan.batch.length ∧
      report.operations = 3 * report.reserved / 2 ∧
      report.container = configuration.container ∧
      report.root = plan.root := by
  obtain ⟨m, plan, t, hgathers, hplan, hwritten, rfl⟩ := written_of_ok h
  obtain ⟨hc, hs, hk, -⟩ := hgathers.at_store
  obtain ⟨-, rfl, -, hpreview⟩ := hgathers.previewed hplan
  refine ⟨m.schema, m.configuration, m.kinds, plan, hs, hc, hk, hpreview, hwritten.links,
    fun id hid => (hwritten.inserted_fresh hid).1, hwritten.strings, hwritten.documents,
    hwritten.names, hwritten.nextId, rfl, rfl, ?_, rfl, rfl⟩
  obtain ⟨f, -, hids, hf⟩ :=
    Plan.preview_done m.schema s.nextId ⟨m.configuration.container, m.kinds⟩
  rw [hf] at hpreview
  cases hpreview
  have hlength := f.length_batch ⟨m.configuration.container, m.kinds⟩ none
  rw [hids, List.length_reverse, List.length_range'] at hlength
  dsimp only
  omega

theorem sample_adds_preview :
    let s' := (convert (Store.access .memory) coreScope 11 (sampleStore none)).2
    s'.documents = (sampleStore none).documents ∧ s'.nextId = 22 ∧
      ∀ (id : LinkId) (l : Link), (sampleStore none).links[id]? = some l →
        s'.links[id]? = some l := by
  have h : (convert (Store.access .memory) coreScope 11 (sampleStore none)).1.result =
      .ok ⟨some 21, 8, 10, 15⟩ := rfl
  obtain ⟨schema, _, _, _, -, -, -, -, hlinks, -, -, hdocuments, -, hnext, hreserved, -⟩ :=
    convert_adds_preview h
  refine ⟨hdocuments, ?_, fun id l hl => (hlinks id l).mpr (.inl hl)⟩
  rw [hnext, ← hreserved]
  rfl

/-- The next id after a conversion that failed: ids are spent only when the batch is refused, or
when there are too few of them. -/
def Spent (backend : Store.Backend) (trigger : LinkId) (s s' : Store) : Error → Prop
  | .batch _ =>
      ∃ schema, s.schemaAt backend trigger = some schema ∧ s'.nextId = s.nextId + schema.demand
  | .pool _ =>
      ∃ schema, s.schemaAt backend trigger = some schema ∧
        s'.nextId = (s.nextId + schema.demand) % LinkId.bound
  | _ => s'.nextId = s.nextId

structure Kept (backend : Store.Backend) (trigger : LinkId) (s s' : Store) (e : Error) : Prop where
  links : s'.links = s.links
  strings : s'.strings = s.strings
  documents : s'.documents = s.documents
  names : s'.names = s.names
  pool : ∀ cause, e = .pool cause →
    ∃ schema, s.schemaAt backend trigger = some schema ∧ ¬s.HasRoom schema.demand
  nextId : Spent backend trigger s s' e

theorem Misses.kept {side : End} {e : Error}
    (h : Misses (Store.access backend) trigger side s e s') : Kept backend trigger s s' e := by
  obtain ⟨rfl, ⟨cause, rfl⟩ | ⟨link, rfl⟩ | ⟨link, rfl⟩⟩ := h.at_store
  · exact ⟨rfl, rfl, rfl, rfl, nofun, rfl⟩
  · exact ⟨rfl, rfl, rfl, rfl, nofun, rfl⟩
  · exact ⟨rfl, rfl, rfl, rfl, nofun, rfl⟩

theorem Gathers.short_of_unplanned {m : Material} {e : PoolError}
    (h : Gathers (Store.access backend) scope trigger s m s') (hplan : m.plan = .error e) :
    ¬s.HasRoom m.schema.demand ∧ s' = s.advance m.schema.demand := by
  have hspend := h.at_store.2.2.2
  have hfew : (s.spend m.schema.demand).1.length ≠ m.schema.demand := by
    intro hlength
    obtain ⟨hids, -⟩ := Prod.mk.inj (hspend.symm.trans (Store.spend_of_length hlength))
    obtain ⟨f, -, -, hpreview⟩ :=
      Plan.preview_done m.schema s.nextId ⟨m.configuration.container, m.kinds⟩
    rw [Material.plan, hids] at hplan
    cases hplan.symm.trans hpreview
  refine ⟨fun hroom => ?_, ?_⟩
  · rw [Store.spend_of_room hroom] at hfew
    exact hfew List.length_range'
  · rw [Store.spend] at hspend hfew
    split at hspend
    · next hzero =>
        rw [if_pos hzero] at hfew
        exact absurd hzero.symm hfew
    · exact (Prod.mk.inj hspend).2.symm

end LinkGraph.Conversion
