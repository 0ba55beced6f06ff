import LinkGraph.Conversion.Configuration
import LinkGraph.Pool
import LinkGraph.Store.Basic

namespace LinkGraph

def End.document : End → String
  | .source => "configuration"
  | .dest => "schema"

namespace Conversion

inductive Error where
  | missingEnd (side : End) (trigger : LinkId)
  | missingValue (side : End) (link : LinkId)
  | configuration (e : ConfigurationError)
  | pool (e : PoolError)
  | batch (e : StoreError)
  | store (e : StoreError)
  deriving DecidableEq

namespace Error

def message : Error → String
  | .missingEnd side trigger =>
      side.document ++ " document is missing: link #" ++ toString trigger ++ " has no " ++
        side.name ++ " end"
  | .missingValue side link =>
      side.document ++ " document is missing: link #" ++ toString link ++ " must have a value"
  | .configuration e => "invalid configuration: " ++ e.message
  | .pool e => "compilation aborted: " ++ e.message
  | .batch e => "batch application failed: " ++ e.message
  | .store e => "store error: " ++ e.message

def code : Error → String
  | .missingEnd _ _ | .missingValue _ _ => "missing_document"
  | .configuration _ => "invalid_configuration"
  | .pool _ => "pool_mismatch"
  | .batch _ => "batch_application_failed"
  | .store _ => "store_error"

end Error

end Conversion

end LinkGraph
