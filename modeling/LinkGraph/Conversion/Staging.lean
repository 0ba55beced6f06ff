import LinkGraph.Conversion.Configuration
import LinkGraph.Store.Access

namespace LinkGraph.Conversion

structure Staged where
  trigger : LinkId
  configuration : LinkId
  schema : LinkId
  container : LinkId
  deriving DecidableEq, Repr

/-- Stores a configuration and a schema, and a trigger from one to the other. Without a container a
new one is made; one that is given need not exist. -/
def stage (access : Access σ) (scope : String) (schema : Json) (container : Option LinkId) :
    EStateM StoreError σ Staged := do
  let type ← access.resolve scope Kind.type.name
  let node : Node := ⟨type, none, none⟩
  let container ← match container with
    | some id => pure id
    | none => access.insertLink node
  let configurationLink ← access.insertLink node
  access.setDocument configurationLink (Configuration.document container)
  let schemaLink ← access.insertLink node
  access.setDocument schemaLink schema
  let trigger ← access.insertLink ⟨type, some configurationLink, some schemaLink⟩
  return ⟨trigger, configurationLink, schemaLink, container⟩

end LinkGraph.Conversion
