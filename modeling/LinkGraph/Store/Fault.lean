import LinkGraph.Store.Access

namespace LinkGraph

structure Faults where
  resolve : Option StoreError := none
  reserve : Option StoreError := none
  apply : Option StoreError := none
  fetchSource : Option StoreError := none
  fetchDest : Option StoreError := none
  kinds : List (String × LinkId) := []
  /-- So many ids are reserved beyond those asked for or, below zero, kept back at the end. -/
  surplus : Int := 0
  reversed : Bool := false
  ids : Option (List LinkId) := none

namespace Faults

variable {σ : Type}

def failing (fault : Option StoreError) (call : EStateM StoreError σ α) : EStateM StoreError σ α :=
  match fault with
  | some e => throw e
  | none => call

def given (faults : Faults) (ids : List LinkId) : List LinkId :=
  let kept := ids.take (ids.length - (-faults.surplus).toNat)
  faults.ids.getD (if faults.reversed then kept.reverse else kept)

def within (faults : Faults) (access : Access σ) : Access σ :=
  { access with
    reserve := fun count =>
      failing faults.reserve (faults.given <$> access.reserve (count + faults.surplus.toNat))
    resolve := fun scope name =>
      failing faults.resolve <|
        match faults.kinds.lookup name with
        | some id => pure id
        | none => access.resolve scope name
    apply := fun batch => failing faults.apply (access.apply batch)
    fetch := fun anchor side =>
      failing (match side with | .source => faults.fetchSource | .dest => faults.fetchDest)
        (access.fetch anchor side) }

end Faults

end LinkGraph
