import LinkGraph.Proofs.Conversion.Container
import LinkGraph.Proofs.Json.Natural
import LinkGraph.Proofs.Store.Growth

namespace LinkGraph

variable {session : Session} {s : Store} {trigger : LinkId}

namespace Json

end Json

namespace Conversion

theorem recall_configuration (backend : Store.Backend) {container : LinkId}
    (h : container < LinkId.bound) :
    backend.recall (Configuration.document container) = .ok (Configuration.document container) := by
  rw [Configuration.document, Json.ofNat_of_lt h]
  cases backend <;> rfl

theorem Configuration.ofJson_document {container : LinkId} (h : container < LinkId.bound)
    (hzero : container ≠ 0) :
    Configuration.ofJson (document container) = .ok ⟨container, Log.defaultDepth⟩ := by
  have hread : read (document container) = .ok ⟨container, Log.defaultDepth⟩ := by
    rw [document, Json.ofNat_of_lt h]
    rfl
  rw [ofJson, hread]
  exact if_neg hzero

end Conversion

namespace Store

/-- The links and documents of a staged conversion are in place. -/
structure HasStaged (s : Store) (staged : Conversion.Staged) (schema : Json) : Prop where
  trigger : ∃ kind, s.links[staged.trigger]? =
    some ⟨⟨kind, some staged.configuration, some staged.schema⟩, staged.trigger⟩
  container : s.hasLink staged.container = true
  configuration : s.documents[staged.configuration]? =
    some (Conversion.Configuration.document staged.container)
  schema : s.documents[staged.schema]? = some schema

theorem run_setDocument (backend : Backend) {id : LinkId} (h : s.hasLink id = true)
    (value : Json) :
    ∃ t, ((access backend).setDocument id value).run s = .ok () t ∧
      Step s (.documented id value) t := by
  refine ⟨_, ?_, .documented h value⟩
  rw [access, Access.run_ofChange, setDocument_eq, Memory.setDocument, if_pos h]
  rfl

end Store

namespace Conversion

def Staged.events (staged : Staged) (type : LinkId) (schema : Json) (container : Option LinkId) :
    List Event :=
  (if container.isNone then [.inserted staged.container ⟨type, none, none⟩] else []) ++
    [.inserted staged.configuration ⟨type, none, none⟩,
      .documented staged.configuration (Configuration.document staged.container),
      .inserted staged.schema ⟨type, none, none⟩, .documented staged.schema schema,
      .inserted staged.trigger ⟨type, some staged.configuration, some staged.schema⟩]

namespace Staged

variable {staged : Staged} {type : LinkId} {schema : Json} {container : Option LinkId}

end Staged

end Conversion

namespace Store

theorem documentAt_of_attached {backend : Backend} (hs : s.Closed) {l : Link} {side : End}
    {id : LinkId} {j value : Json} (hl : s.links[trigger]? = some l)
    (hside : l.follow side = some id) (hj : s.documents[id]? = some j)
    (hvalue : backend.recall j = .ok value) :
    s.documentAt backend trigger side = some value := by
  have hfetch : Memory.fetch s trigger side = some ⟨id, some j⟩ := by
    simp [Memory.fetch, document?, hl, hside, hs.documents hj, hj]
  rw [documentAt, fetch_eq hs, hfetch, Document.recalled, hvalue]
  rfl

namespace HasStaged

variable {staged : Conversion.Staged} {schema : Json}

theorem configurationAt (h : s.HasStaged staged schema) (backend : Backend) (hs : s.Closed)
    (hfits : staged.container < LinkId.bound) (hzero : staged.container ≠ 0) :
    s.configurationAt backend staged.trigger = some ⟨staged.container, Log.defaultDepth⟩ := by
  obtain ⟨kind, htrigger⟩ := h.trigger
  rw [Store.configurationAt, documentAt_of_attached hs htrigger rfl h.configuration
    (Conversion.recall_configuration backend hfits), Option.bind_some,
    Conversion.Configuration.ofJson_document hfits hzero]
  rfl

theorem documentAt_schema (h : s.HasStaged staged schema) {backend : Backend} (hs : s.Closed)
    {value : Json} (hvalue : backend.recall schema = .ok value) :
    s.documentAt backend staged.trigger .dest = some value := by
  obtain ⟨kind, htrigger⟩ := h.trigger
  exact documentAt_of_attached hs htrigger rfl h.schema hvalue

theorem schemaAt (h : s.HasStaged staged schema) {backend : Backend} (hs : s.Closed) {value : Json}
    (hvalue : backend.recall schema = .ok value) :
    s.schemaAt backend staged.trigger = some (Schema.ofJson value) := by
  rw [Store.schemaAt, h.documentAt_schema hs hvalue]
  rfl

end HasStaged

end Store

end LinkGraph
