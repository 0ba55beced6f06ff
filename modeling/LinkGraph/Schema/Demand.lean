import LinkGraph.Schema.Basic

namespace LinkGraph.Schema

/-- Ids of one entity: its type node, its value node, and what contains each. -/
def entityDemand : Nat := 4

def markDemand : Nat := 2

def marks (required : Bool) (s : Schema) : Nat :=
  if required && s.hasNode then markDemand else 0

mutual

def demand : Schema → Nat
  | .boolean _ | .string _ | .number _ => entityDemand
  | .object _ properties required => entityDemand + propertiesDemand required properties
  | .list _ item => item.demand
  | .tuple _ items => entityDemand + itemsDemand items
  | .other => 0

def propertiesDemand (required : Std.ExtTreeSet String) : List (String × Schema) → Nat
  | [] => 0
  | (name, s) :: rest =>
      s.demand + marks (required.contains name) s + propertiesDemand required rest

def itemsDemand : List Schema → Nat
  | [] => 0
  | s :: rest => s.demand + itemsDemand rest

end

end LinkGraph.Schema
