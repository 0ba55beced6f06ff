import LinkGraph.Operation.Basic
import Std.Data.ExtTreeMap
import Std.Data.ExtTreeSet

namespace LinkGraph.Batch

/-- Why a batch cannot be applied in its order. Operations are counted from zero. -/
inductive OrderError where
  | duplicateId (index : Nat) (id : LinkId) (first : Nat)
  | forwardReference (index : Nat) (id : LinkId) (insertedAt : Nat)
  deriving DecidableEq, Repr

def OrderError.message : OrderError → String
  | .duplicateId index id first =>
      "operation " ++ toString index ++ " inserts id " ++ toString id ++ ", which operation " ++
        toString first ++ " already inserted"
  | .forwardReference index id insertedAt =>
      "operation " ++ toString index ++ " references id " ++ toString id ++ " before operation " ++
        toString insertedAt ++ " inserts it"

abbrev Places := Std.ExtTreeMap LinkId Nat

/-- The places of a batch whose first operation has the given index; no id may have two. -/
def places (index : Nat) (found : Places) : Batch → Except OrderError Places
  | [] => .ok found
  | op :: rest =>
      match op.inserted? with
      | none => places (index + 1) found rest
      | some id =>
          match found[id]? with
          | some first => .error (.duplicateId index id first)
          | none => places (index + 1) (found.insert id index) rest

def pending? (found : Places) (seen : Std.ExtTreeSet LinkId) (ids : List LinkId) :
    Option (LinkId × Nat) :=
  ids.findSome? fun id => if seen.contains id then none else found[id]?.map fun place => (id, place)

def note (seen : Std.ExtTreeSet LinkId) (op : Operation) : Std.ExtTreeSet LinkId :=
  match op.inserted? with
  | some id => seen.insert id
  | none => seen

def checkReferences (found : Places) (index : Nat) (seen : Std.ExtTreeSet LinkId) :
    Batch → Except OrderError Unit
  | [] => .ok ()
  | op :: rest =>
      match pending? found seen op.references with
      | some (id, insertedAt) => .error (.forwardReference index id insertedAt)
      | none => checkReferences found (index + 1) (note seen op) rest

/-- Ids are inserted once, and referred to only after that. What the batch does not insert counts as
there already. -/
def checkOrder (batch : Batch) : Except OrderError Unit := do
  let found ← places 0 ∅ batch
  checkReferences found 0 ∅ batch

end LinkGraph.Batch
