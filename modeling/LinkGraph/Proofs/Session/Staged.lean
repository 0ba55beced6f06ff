import LinkGraph.Proofs.Conversion.ReadBack
import LinkGraph.Proofs.Conversion.Staged
import LinkGraph.Proofs.Session.Growth

namespace LinkGraph

variable {session : Session} {s : Store}

theorem Store.HasStaged.runAll {staged : Conversion.Staged} {schema : Json}
    (h : s.HasStaged staged schema) (hs : s.Sound) {calls : List Call}
    (hroom : session.HasRoom s calls)
    (hconfiguration : ∀ value, .setDocument staged.configuration value ∉ calls)
    (hschema : ∀ value, .setDocument staged.schema value ∉ calls) :
    (session.runAll s calls).2.HasStaged staged schema := by
  have hlt : ∀ {id : LinkId} {j : Json}, s.documents[id]? = some j → id < s.nextId :=
    fun hj => hs.ahead (hs.documents hj)
  constructor
  · obtain ⟨kind, htrigger⟩ := h.trigger
    exact ⟨kind, (Session.grows_runAll hs.ahead hroom).links htrigger⟩
  · exact (session.trail_runAll s calls).hasLink h.container
  · exact (Session.documents_runAll hroom hconfiguration (hlt h.configuration)).trans
      h.configuration
  · exact (Session.documents_runAll hroom hschema (hlt h.schema)).trans h.schema

namespace Session

end Session

end LinkGraph
