import LinkGraph.Proofs.Session.Growth

namespace LinkGraph

namespace Store

variable {s : Store}

end Store

namespace Session

end Session

end LinkGraph
