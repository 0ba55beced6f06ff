import LinkGraph.Operation.Basic
import LinkGraph.Pool
import LinkGraph.Schema.Basic

namespace LinkGraph

structure Place where
  parent : Option LinkId
  name : String
  required : Bool
  deriving DecidableEq, Repr

def Place.root (name : String) : Place := ⟨none, name, false⟩

/-- What is the same for everything that is built: the node that contains it, and the kinds. -/
structure Site where
  container : LinkId
  kinds : KindTable
  deriving DecidableEq, Repr

namespace Site

def contained (site : Site) (op : Operation) (id edge : LinkId) (name : String) : Batch :=
  [op, .edge edge site.kinds.contain site.container id, .insertValue edge name]

/-- The batch of one entity, and its node. Ids are drawn in the order in which they are used. -/
def entity (site : Site) (place : Place) (valueType : LinkId) : Draw (Batch × LinkId) := do
  let kinds := site.kinds
  let type ← Pool.pop
  let typeEdge ← Pool.pop
  let value ← Pool.pop
  let valueEdge ← Pool.pop
  let batch :=
    site.contained (.anchored type kinds.type place.parent) type typeEdge place.name ++
    site.contained (.edge value kinds.value type valueType) value valueEdge (place.name ++ "Value")
  if place.required then
    let mark ← Pool.pop
    let markEdge ← Pool.pop
    let marked :=
      site.contained (.anchored mark kinds.required place.parent) mark markEdge
        (place.name ++ "Required")
    return (batch ++ marked, type)
  else
    return (batch, type)

def itemName (name : String) (index : Nat) : String := name ++ "[" ++ toString index ++ "]"

mutual

/-- The batch that builds a schema, every node before those that hang on it. A list is built as its
item, in the place of the list. -/
def build (site : Site) (place : Place) : Schema → Draw Batch
  | .boolean _ => do return (← site.entity place site.kinds.object).1
  | .string _ => do return (← site.entity place site.kinds.string).1
  | .number _ => do return (← site.entity place site.kinds.number).1
  | .object _ properties required => do
      let (batch, node) ← site.entity place site.kinds.object
      return batch ++ (← site.buildProperties node required properties)
  | .list _ item => site.build place item
  | .tuple _ items => do
      let (batch, node) ← site.entity place site.kinds.object
      return batch ++ (← site.buildItems node place.name 0 items)
  | .other => return []

def buildProperties (site : Site) (parent : LinkId) (required : Std.ExtTreeSet String) :
    List (String × Schema) → Draw Batch
  | [] => return []
  | (name, s) :: rest => do
      let batch ← site.build ⟨some parent, name, required.contains name⟩ s
      return batch ++ (← site.buildProperties parent required rest)

def buildItems (site : Site) (parent : LinkId) (name : String) (index : Nat) :
    List Schema → Draw Batch
  | [] => return []
  | s :: rest => do
      let batch ← site.build ⟨some parent, itemName name index, false⟩ s
      return batch ++ (← site.buildItems parent name (index + 1) rest)

end

end Site

end LinkGraph
