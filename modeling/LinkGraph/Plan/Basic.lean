import LinkGraph.Plan.Build
import LinkGraph.Schema.Demand

namespace LinkGraph

/-- The batch of a whole schema, and the node of its root if it has one. -/
structure Plan where
  root : Option LinkId
  batch : Batch
  deriving DecidableEq, Repr

namespace Plan

def rootName (s : Schema) : String := s.title?.getD "Schema"

/-- Builds a schema from a pool that must hold exactly the ids it takes. -/
def compile (s : Schema) (pool : Pool) (site : Site) : Except PoolError Plan :=
  match (site.build (.root (rootName s)) s).run pool with
  | .error e _ => .error e
  | .ok batch rest => do
      rest.finish
      return ⟨if s.hasNode then batch.head?.bind Operation.inserted? else none, batch⟩

def preview (s : Schema) (first : LinkId) (site : Site) : Except PoolError Plan :=
  compile s (.consecutive first s.demand) site

end Plan

end LinkGraph
