import LinkGraph.Batch.Order
import LinkGraph.Store.Basic

namespace LinkGraph.Store

def write (s : Store) : Operation → Store
  | .insertNode id node => s.putLink ⟨node, id⟩
  | .insertValue target value => s.putString target value

def unknownReference (index : Nat) (id : LinkId) : StoreError :=
  .rejected ("operation " ++ toString index ++ " references unknown id " ++ toString id)

def alreadyStored (id : LinkId) : StoreError :=
  .conflict ("link " ++ toString id ++ " already exists")

def unreserved (index : Nat) (id : LinkId) : StoreError :=
  .rejected ("operation " ++ toString index ++ " inserts unreserved id " ++ toString id)

def secondValue (index : Nat) (target : LinkId) : StoreError :=
  .rejected ("operation " ++ toString index ++ " attaches a second value to link " ++
    toString target)

def ordered (batch : Batch) : Except StoreError Unit :=
  match batch.checkOrder with
  | .ok () => .ok ()
  | .error e => .error (.rejected e.message)

structure Progress where
  inserted : Std.ExtTreeSet LinkId := ∅
  valued : Std.ExtTreeSet LinkId := ∅

/-- Judges an operation by the store as it was and by the operations before. -/
def checkOperation (s : Store) (index : Nat) (before : Progress) (op : Operation) :
    Except StoreError Progress :=
  match op.references.find? fun id => !(before.inserted.contains id || s.hasLink id) with
  | some id => .error (unknownReference index id)
  | none =>
      match op with
      | .insertNode id _ =>
          if s.hasLink id then .error (alreadyStored id)
          else if s.nextId ≤ id then .error (unreserved index id)
          else .ok { before with inserted := before.inserted.insert id }
      | .insertValue target _ =>
          if s.strings.contains target || before.valued.contains target then
            .error (secondValue index target)
          else .ok { before with valued := before.valued.insert target }

def checkOperations (s : Store) (index : Nat) (before : Progress) :
    Batch → Except StoreError Unit
  | [] => .ok ()
  | op :: rest => do
      let before ← s.checkOperation index before op
      s.checkOperations (index + 1) before rest

def applyChecked (s : Store) (batch : Batch) : Except StoreError Store := do
  ordered batch
  s.checkOperations 0 {} batch
  return batch.foldl write s

/-- Judges an operation by the store as the operations before have left it, and writes it. -/
def stepTransaction (next : LinkId) (index : Nat) (s : Store) (op : Operation) :
    Except StoreError Store :=
  match op.references.find? fun id => !s.hasLink id with
  | some id => .error (unknownReference index id)
  | none =>
      match op with
      | .insertNode id _ =>
          if s.hasLink id then .error (alreadyStored id)
          else if next ≤ id then .error (unreserved index id)
          else .ok (s.write op)
      | .insertValue target _ =>
          if s.strings.contains target then .error (secondValue index target)
          else .ok (s.write op)

def runTransaction (next : LinkId) (index : Nat) (s : Store) : Batch → Except StoreError Store
  | [] => .ok s
  | op :: rest => do
      let s ← stepTransaction next index s op
      runTransaction next (index + 1) s rest

/-- Checks and writes operation by operation; a fault drops all that was written. -/
def applyTransaction (s : Store) (batch : Batch) : Except StoreError Store := do
  ordered batch
  runTransaction s.nextId 0 s batch

end LinkGraph.Store
