import LinkGraph.Proofs.Conversion.Effect
import LinkGraph.Proofs.Session.Moves
import LinkGraph.Proofs.Store.Growth

namespace LinkGraph

namespace Store

/-- Between two stores nothing was written, though ids may have been handed out. -/
structure Unwritten (s t : Store) : Prop where
  links : t.links = s.links
  strings : t.strings = s.strings
  documents : t.documents = s.documents
  names : t.names = s.names

variable {s t u : Store}

theorem Extends.unwritten {es : List Event} (h : Extends s es t) (h' : Unwritten t u) :
    Extends s es u where
  links := h'.links ▸ h.links
  documents := h'.documents ▸ h.documents
  fresh := h.fresh
  strings := h'.strings.trans h.strings
  names := h'.names.trans h.names

end Store

namespace Conversion

variable {backend : Store.Backend} {scope : String} {trigger : LinkId} {s : Store}

/-- A conversion has committed when the batch of its plan is written whole, on the ids that it has
reserved for it. -/
inductive Commits (backend : Store.Backend) (scope : String) (trigger : LinkId) (s : Store) :
    Store → Prop where
  | committed {configuration : Configuration} {schema : Schema} {kinds : KindTable} {plan : Plan}
      {s' : Store} (configured : s.configurationAt backend trigger = some configuration)
      (read : s.schemaAt backend trigger = some schema) (resolved : s.kindsIn scope = .ok kinds)
      (planned : Plan.preview schema s.nextId ⟨configuration.container, kinds⟩ = .ok plan)
      (written : Store.Written { s with nextId := s.nextId + schema.demand } plan.batch s') :
      Commits backend scope trigger s s'

end Conversion

end LinkGraph
