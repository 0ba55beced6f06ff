import LinkGraph.Store.Basic

namespace LinkGraph.Store.Memory

def reserve (s : Store) (count : Nat) : Except StoreError (List LinkId × Store) :=
  if count = 0 then .error (.rejected "cannot reserve zero ids") else .ok (s.allocate count)

def resolve (s : Store) (scope name : String) : Except StoreError LinkId :=
  match s.names.lookup ⟨scope, name⟩ with
  | some id => .ok id
  | none => .error (.notFound (scope ++ "/" ++ name))

def fetch (s : Store) (anchor : LinkId) (side : End) : Option Document :=
  match s.links[anchor]?.bind (·.follow side) with
  | none => none
  | some target => if s.hasLink target then some ⟨target, s.document? target⟩ else none

/-- Adds one link, whose kind and ends must be stored. A link that has its id already gives way. -/
def insertLink (s : Store) (node : Node) : Except StoreError (LinkId × Store) :=
  match node.references.find? fun id => !s.hasLink id with
  | some id => .error (.rejected ("unknown id " ++ toString id))
  | none =>
      match s.allocate 1 with
      | (id :: _, s) => .ok (id, s.putLink ⟨node, id⟩)
      -- The greatest id is never given out.
      | ([], _) => .error (.internal "index out of bounds: the len is 0 but the index is 0")

def setDocument (s : Store) (id : LinkId) (value : Json) : Except StoreError Store :=
  if s.hasLink id then .ok (s.putDocument id value)
  else .error (.notFound ("link " ++ toString id))

end LinkGraph.Store.Memory
