import LinkGraph.Proofs.Plan.Contents

namespace LinkGraph

namespace Forest

end Forest

namespace Plan

end Plan

end LinkGraph
