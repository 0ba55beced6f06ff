import LinkGraph.Kind.Basic

namespace LinkGraph

inductive Operation where
  | insertNode (id : LinkId) (node : Node)
  | insertValue (target : LinkId) (value : String)
  deriving DecidableEq, Repr

abbrev Batch := List Operation

namespace Operation

def node (id kind : LinkId) : Operation := .insertNode id ⟨kind, none, none⟩

def edge (id kind source dest : LinkId) : Operation :=
  .insertNode id ⟨kind, some source, some dest⟩

def anchored (id kind : LinkId) (anchor : Option LinkId) : Operation :=
  .insertNode id ⟨kind, anchor, anchor⟩

def inserted? : Operation → Option LinkId
  | .insertNode id _ => some id
  | .insertValue _ _ => none

def references : Operation → List LinkId
  | .insertNode _ node => node.references
  | .insertValue target _ => [target]

end Operation

end LinkGraph
