import LinkGraph.Store.Apply
import LinkGraph.Store.Database
import LinkGraph.Store.Memory

namespace LinkGraph

/-- The calls through which a conversion and its staging reach a store of any make. -/
structure Access (σ : Type) where
  reserve : Nat → EStateM StoreError σ (List LinkId)
  resolve (scope name : String) : EStateM StoreError σ LinkId
  apply : Batch → EStateM StoreError σ Unit
  fetch (anchor : LinkId) (side : End) : EStateM StoreError σ (Option Document)
  insertLink : Node → EStateM StoreError σ LinkId
  setDocument (id : LinkId) (value : Json) : EStateM StoreError σ Unit

namespace Access

variable {σ : Type}

def ofChange (f : σ → Except StoreError (α × σ)) : EStateM StoreError σ α := fun s =>
  match f s with
  | .ok (a, s) => .ok a s
  | .error e => .error e s

def ofView (f : σ → Except StoreError α) : EStateM StoreError σ α := fun s =>
  match f s with
  | .ok a => .ok a s
  | .error e => .error e s

end Access

namespace Store

inductive Backend where
  | memory
  | database
  deriving DecidableEq, Repr

variable (backend : Backend) (s : Store)

def reserve (count : Nat) : Except StoreError (List LinkId × Store) :=
  match backend with
  | .memory => Memory.reserve s count
  | .database => Database.reserve s count

def resolve (scope name : String) : Except StoreError LinkId :=
  match backend with
  | .memory => Memory.resolve s scope name
  | .database => Database.resolve s scope name

def apply (batch : Batch) : Except StoreError Store :=
  match backend with
  | .memory => s.applyChecked batch
  | .database => s.applyTransaction batch

def fetch (anchor : LinkId) (side : End) : Except StoreError (Option Document) :=
  match backend with
  | .memory => .ok (Memory.fetch s anchor side)
  | .database => Database.fetch s anchor side

def insertLink (node : Node) : Except StoreError (LinkId × Store) :=
  match backend with
  | .memory => Memory.insertLink s node
  | .database => Database.insertLink s node

def setDocument (id : LinkId) (value : Json) : Except StoreError Store :=
  match backend with
  | .memory => Memory.setDocument s id value
  | .database => Database.setDocument s id value

def access (backend : Backend) : Access Store where
  reserve count := Access.ofChange fun s => s.reserve backend count
  resolve scope name := Access.ofView fun s => s.resolve backend scope name
  apply batch := Access.ofChange fun s => (s.apply backend batch).map ((), ·)
  fetch anchor side := Access.ofView fun s => s.fetch backend anchor side
  insertLink node := Access.ofChange fun s => s.insertLink backend node
  setDocument id value := Access.ofChange fun s => (s.setDocument backend id value).map ((), ·)

end Store

end LinkGraph
