import LinkGraph.Conversion.Basic
import LinkGraph.Conversion.Staging
import LinkGraph.Store.Fault

namespace LinkGraph

inductive Call where
  | reserve (count : Nat)
  | resolve (scope name : String)
  | resolveAll (scope : String)
  | apply (batch : Batch)
  | fetch (anchor : LinkId) (side : End)
  | insertLink (node : Node)
  | setDocument (id : LinkId) (value : Json)
  | link (id : LinkId)
  | string (id : LinkId)
  | linksOfKind (kind : LinkId)
  | count
  | stage (scope : String) (schema : Json) (container : Option LinkId)
  | convert (scope : String) (trigger : LinkId)

inductive Answer where
  | ids (ids : List LinkId)
  | id (id : LinkId)
  | kinds (table : KindTable)
  | done
  | document (found : Option Document)
  | link (found : Option Link)
  | string (found : Option String)
  | links (found : List Link)
  | count (n : Nat)
  | staged (s : Conversion.Staged)
  | converted (o : Conversion.Outcome)
  | failed (e : StoreError)

/-- A client's view of a store: its make, and whether it outlives being closed. -/
structure Session where
  backend : Store.Backend
  durable : Bool
  deriving DecidableEq, Repr

namespace Session

def answer (f : α → Answer) (call : EStateM StoreError Store α) (s : Store) : Answer × Store :=
  match call.run s with
  | .ok a s => (f a, s)
  | .error e s => (.failed e, s)

def access (session : Session) : Access Store := Store.access session.backend

def run (session : Session) (s : Store) (call : Call) : Answer × Store :=
  match call with
  | .reserve count => answer .ids (session.access.reserve count) s
  | .resolve scope name => answer .id (session.access.resolve scope name) s
  | .resolveAll scope => answer .kinds (Conversion.resolveKinds session.access scope) s
  | .apply batch => answer (fun () => .done) (session.access.apply batch) s
  | .fetch anchor side => answer .document (session.access.fetch anchor side) s
  | .insertLink node => answer .id (session.access.insertLink node) s
  | .setDocument id value => answer (fun () => .done) (session.access.setDocument id value) s
  | .link id => (.link (s.link? id), s)
  | .string id => (.string (s.string? id), s)
  | .linksOfKind kind => (.links (s.linksOfKind kind), s)
  | .count => (.count s.size, s)
  | .stage scope schema container =>
      answer .staged (Conversion.stage session.access scope schema container) s
  | .convert scope trigger =>
      let (outcome, s) := Conversion.convert session.access scope trigger s
      (.converted outcome, s)

def runAll (session : Session) (s : Store) : List Call → List Answer × Store
  | [] => ([], s)
  | call :: rest =>
      let (a, s) := session.run s call
      let (as, s) := session.runAll s rest
      (a :: as, s)

def convertFaulty (session : Session) (faults : Faults) (scope : String) (trigger : LinkId)
    (s : Store) : Answer × Store :=
  let (outcome, s) := Conversion.convert (faults.within session.access) scope trigger s
  (.converted outcome, s)

def reopen (session : Session) (s : Store) : Store :=
  if session.durable then .opened s.rows else .fresh

end Session

end LinkGraph
