import LinkGraph.Proofs.Session.Growth
import LinkGraph.Proofs.Store.Ready

namespace LinkGraph

namespace Store

variable {s s' : Store} {batch : Batch} {ids : List LinkId}

end Store

namespace Session

variable {session : Session} {s t : Store} {ids : List LinkId}

end Session

end LinkGraph
