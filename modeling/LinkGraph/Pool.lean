import LinkGraph.Link

namespace LinkGraph

/-- The ids reserved for one compilation that are not used yet, next one first. -/
structure Pool where
  next : List LinkId
  reserved : Nat
  deriving DecidableEq, Repr

/-- The demand of a schema and the pool made for it disagree. -/
inductive PoolError where
  | exhausted (reserved : Nat)
  | undrained (reserved remaining : Nat)
  deriving DecidableEq, Repr

def PoolError.message : PoolError → String
  | .exhausted reserved =>
      "identifier pool exhausted after consuming all " ++ toString reserved ++ " reserved ids"
  | .undrained reserved remaining =>
      "identifier pool not drained: " ++ toString remaining ++ " of " ++ toString reserved ++
        " reserved ids unused"

abbrev Draw := EStateM PoolError Pool

namespace Pool

/-- The last id of the list is the first to be used. -/
def ofList (ids : List LinkId) : Pool := ⟨ids.reverse, ids.length⟩

def consecutive (first : LinkId) (count : Nat) : Pool := ofList (List.range' first count)

def toList (p : Pool) : List LinkId := p.next.reverse

def remaining (p : Pool) : Nat := p.next.length

def isEmpty (p : Pool) : Bool := p.next.isEmpty

def pop : Draw LinkId := fun p =>
  match p.next with
  | [] => .error (.exhausted p.reserved) p
  | id :: rest => .ok id { p with next := rest }

def finish (p : Pool) : Except PoolError Unit :=
  if p.isEmpty then .ok () else .error (.undrained p.reserved p.remaining)

end Pool

end LinkGraph
