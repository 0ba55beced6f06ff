import LinkGraph.Proofs.Session.Reachable
import LinkGraph.Proofs.Store.Reading

namespace LinkGraph

namespace Store

variable {s : Store}

def ids (s : Store) : List LinkId := s.allLinks.map (·.id)

end Store

namespace Session

end Session

end LinkGraph
