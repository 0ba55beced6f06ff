import LinkGraph.Conversion.Error
import LinkGraph.Plan.Basic
import LinkGraph.Schema.Document
import LinkGraph.Store.Access

namespace LinkGraph.Conversion

structure Report where
  root : Option LinkId
  container : LinkId
  reserved : Nat
  operations : Nat
  deriving DecidableEq, Repr

/-- A report or the reason why there is none, with all that was logged on the way. -/
structure Outcome where
  result : Except Error Report
  log : List Log.Entry

structure State (σ : Type) where
  store : σ
  log : Log

variable {σ : Type}

abbrev Run (σ : Type) := EStateM Error (State σ)

def note (scope message : String) : Run σ Unit :=
  modify fun s => { s with log := s.log.add scope message }

/-- Calls the store; `cause` says what its refusal means. -/
def call (cause : StoreError → Error) (f : EStateM StoreError σ α) : Run σ α := fun s =>
  match f.run s.store with
  | .ok a store => .ok a { s with store }
  | .error e store => .error (cause e) { s with store }

def lift (cause : ε → Error) : Except ε α → Run σ α
  | .ok a => pure a
  | .error e => throw (cause e)

def fetchDocument (access : Access σ) (trigger : LinkId) (side : End) : Run σ Json := do
  note "fetch"
    (side.document ++ " document via " ++ side.name ++ " end of #" ++ toString trigger)
  match ← call .store (access.fetch trigger side) with
  | none => throw (.missingEnd side trigger)
  | some ⟨link, none⟩ | some ⟨link, some .null⟩ => throw (.missingValue side link)
  | some ⟨link, some value⟩ =>
      let log := (← get).log
      note "fetch" ("#" ++ toString link ++ " = " ++ log.summary value)
      return value

def readConfiguration (document : Json) : Run σ Configuration := do
  let configuration ← lift .configuration (Configuration.ofJson document)
  modify fun s => { s with log := s.log.withDepth configuration.depth }
  note "config" configuration.describe
  return configuration

def resolveKinds (access : Access σ) (scope : String) : EStateM StoreError σ KindTable :=
  KindTable.ofLookup fun kind => access.resolve scope kind.name

def reserveIds (access : Access σ) (count : Nat) : EStateM StoreError σ (List LinkId) :=
  if count = 0 then pure [] else access.reserve count

def rootText : Option LinkId → String
  | some id => "Some(" ++ toString id ++ ")"
  | none => "None"

/-- The conversion of the schema at one end of the trigger, as the configuration at the other end
says. The batch is applied last, so a failure before leaves nothing written. -/
def attempt (access : Access σ) (scope : String) (trigger : LinkId) : Run σ Report := do
  let configuration ← readConfiguration (← fetchDocument access trigger .source)
  let schema := Schema.ofJson (← fetchDocument access trigger .dest)
  let kinds ← call .store (resolveKinds access scope)
  note "kinds" kinds.describe
  let count := schema.demand
  note "estimate" (toString count ++ " ids")
  let ids ← call .store (reserveIds access count)
  let plan ← lift .pool (Plan.compile schema (.ofList ids) ⟨configuration.container, kinds⟩)
  note "compile" (toString plan.batch.length ++ " operations, root " ++ rootText plan.root)
  if !plan.batch.isEmpty then
    call .batch (access.apply plan.batch)
  note "apply" "committed"
  return ⟨plan.root, configuration.container, count, plan.batch.length⟩

def convert (access : Access σ) (scope : String) (trigger : LinkId) (store : σ) : Outcome × σ :=
  match (attempt access scope trigger).run ⟨store, .start Log.defaultDepth⟩ with
  | .ok report s => (⟨.ok report, s.log.entries⟩, s.store)
  | .error e s => (⟨.error e, (s.log.add "convert" ("failed: " ++ e.message)).entries⟩, s.store)

end LinkGraph.Conversion
