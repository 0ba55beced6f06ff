import LinkGraph.Cli.Arguments
import LinkGraph.Cli.Host
import LinkGraph.Conversion.Staging
import LinkGraph.Conversion.Wire
import LinkGraph.Json.Read

namespace LinkGraph.Cli.Convert

def tool : String := "schemagraph-convert"

inductive Action where
  | run (trigger : LinkId)
  | seed (path : String) (container : Option LinkId)
  | convert (path : String) (container : Option LinkId)
  deriving DecidableEq, Repr

def Action.path? : Action → Option String
  | .run _ => none
  | .seed path _ | .convert path _ => some path

structure Command where
  database : Option String
  scope : String
  action : Action
  deriving DecidableEq, Repr

abbrev Environment := List (String × String)

namespace Command

def anywhere : List (String × Form) := [("db", .anything), ("namespace", .anything)]

def topLevel : Level := { options := anywhere, commands := ["run", "seed", "convert"] }

def runLevel : Level := { options := anywhere, positionals := [.id] }

def seedLevel : Level := { options := anywhere ++ [("schema", .path), ("container", .id)] }

/-- An option that may stand at both levels: the command's own comes first, the environment last. -/
def setting (outer inner : Scan) (environment : Environment) (option fallback : String) :
    Option String :=
  (inner.options.lookup option).or
    ((outer.options.lookup option).or (environment.lookup fallback))

def readRun (found : Scan) : Except Refusal Action :=
  .run <$> required (found.positionals.head?.bind readId?)

def readSeed (found : Scan) (action : String → Option LinkId → Action) : Except Refusal Action := do
  let path ← required (found.options.lookup "schema")
  return action path ((found.options.lookup "container").bind readId?)

def ofArgs (args : List String) (environment : Environment) : Except Refusal Command := do
  let outer ← topLevel.scan {} args
  let (name, args) ← required outer.command
  let inner ← (if name = "run" then runLevel else seedLevel).scan {} args
  let outer ← topLevel.settle outer
  let action ←
    if name = "run" then readRun inner
    else readSeed inner (if name = "seed" then .seed else .convert)
  return {
    database := setting outer inner environment "db" "SCHEMAGRAPH_DB"
    scope := (setting outer inner environment "namespace" "SCHEMAGRAPH_NAMESPACE").getD coreScope
    action }

def backend (command : Command) : Store.Backend :=
  if command.database.isSome then .database else .memory

end Command

def fatal (message : String) : Outcome := .fatal tool message

def cannotOpen (name why : String) : Outcome :=
  let e : StoreError := .internal ("failed to open SQLite database at " ++ name ++ ": " ++ why)
  fatal e.message

def printed (j : Json) : String := j.pretty ++ "\n"

def runTrigger (command : Command) (trigger : LinkId) (s : Store) : Outcome × Store :=
  let (outcome, s) := Conversion.convert (Store.access command.backend) command.scope trigger s
  let exit := match outcome.result with
    | .ok _ => 0
    | .error _ => 1
  ({ exit, stdout := printed outcome.toJson }, s)

def readDocument (host : Host) (path : String) : Except Outcome Json :=
  match host.input path with
  | .error why => .error (fatal (cannotRead path why))
  | .ok text =>
      match Json.read? text with
      | none => .error (fatal (path ++ " is not valid JSON: " ++ host.jsonFault text))
      | some j => .ok j

def seedThen (command : Command) (host : Host) (path : String) (container : Option LinkId)
    (s : Store) (next : Conversion.Staged → Store → Outcome × Store) : Outcome × Store :=
  match readDocument host path with
  | .error outcome => (outcome, s)
  | .ok schema =>
      let staging := Conversion.stage (Store.access command.backend) command.scope schema container
      match staging.run s with
      | .error e s => (fatal ("failed to stage schema: " ++ e.message), s)
      | .ok staged s => next staged s

def run (command : Command) (host : Host) (s : Store) : Outcome × Store :=
  match command.action with
  | .run trigger => runTrigger command trigger s
  | .seed path container =>
      seedThen command host path container s fun staged s => (.success (printed staged.toJson), s)
  | .convert path container =>
      seedThen command host path container s fun staged s => runTrigger command staged.trigger s

/-- Opens the store of a command, runs it, and tells which rows its database is left with. A
database that cannot be opened ends the command before anything is read. -/
def Command.process (command : Command) (host : Host) : Outcome × Option Rows :=
  match command.database with
  | none => ((run command host .fresh).1, none)
  | some name =>
      match host.connect name with
      | .error why => (cannotOpen name why, none)
      | .ok rows =>
          let (outcome, s) := run command host (.opened rows)
          (outcome, some s.rows)

end LinkGraph.Cli.Convert
