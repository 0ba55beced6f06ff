namespace LinkGraph

abbrev LinkId := Nat

/-- Ids are numbers of 64 bits. -/
def LinkId.bound : Nat := 18446744073709551616

inductive End where
  | source
  | dest
  deriving DecidableEq, Repr

def End.name : End → String
  | .source => "from"
  | .dest => "to"

/-- What a stored link says, apart from its id. -/
structure Node where
  kind : LinkId
  source : Option LinkId := none
  dest : Option LinkId := none
  deriving DecidableEq, Repr

namespace Node

def follow (n : Node) : End → Option LinkId
  | .source => n.source
  | .dest => n.dest

def references (n : Node) : List LinkId := n.kind :: (n.source.toList ++ n.dest.toList)

theorem mem_references {n : Node} {id : LinkId} :
    id ∈ n.references ↔ id = n.kind ∨ ∃ side, n.follow side = some id := by
  simp only [references, List.mem_cons, List.mem_append, Option.mem_toList]
  constructor
  · rintro (hkind | hsource | hdest)
    · exact .inl hkind
    · exact .inr ⟨.source, hsource⟩
    · exact .inr ⟨.dest, hdest⟩
  · rintro (hkind | ⟨side, hside⟩)
    · exact .inl hkind
    · cases side with
      | source => exact .inr (.inl hside)
      | dest => exact .inr (.inr hside)

end Node

structure Link extends Node where
  id : LinkId
  deriving DecidableEq, Repr

end LinkGraph
