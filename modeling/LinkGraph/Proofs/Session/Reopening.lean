import LinkGraph.Proofs.Session.Reachable

namespace LinkGraph

namespace Session

variable {session : Session} {s : Store}

end Session

end LinkGraph
