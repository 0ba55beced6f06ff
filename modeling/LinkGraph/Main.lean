import LinkGraph.Cli.Convert
import LinkGraph.Cli.Preview
import LinkGraph.Store.Snapshot

namespace LinkGraph.Cli

def number (code : UInt32) : Nat :=
  if code.toNat < 2147483648 then code.toNat else 4294967296 - code.toNat

def describe : IO.Error → String
  | .noFileOrDirectory _ code details | .permissionDenied _ code details
  | .inappropriateType _ code details | .invalidArgument _ code details
  | .resourceExhausted _ code details | .unsupportedOperation code details
  | .otherError code details => details.capitalize ++ " (os error " ++ toString (number code) ++ ")"
  | .userError _ => "stream did not contain valid UTF-8"
  | e => toString e

def reading (text : IO String) : IO (Except String String) := do
  try return .ok (← text)
  catch e => return .error (describe e)

def readInput (path : String) : IO (Except String String) :=
  reading (if path = standardInput then do (← IO.getStdin).readToEnd else IO.FS.readFile path)

def saveRows (path : String) (rows : Rows) : IO Unit := IO.FS.writeFile path rows.toJson.compact

/-- The rows in a file, none when it is missing or empty. It is written once on opening, which shows
whether it can be. -/
def readRows (path : String) : IO (Except String Rows) := do
  try
    let text ← try IO.FS.readFile path catch
      | .noFileOrDirectory .. => pure ""
      | e => throw e
    match if text = "" then some {} else (Json.read? text).bind Rows.ofJson? with
    | none => return .error "file is not a database"
    | some rows =>
        saveRows path rows.bootstrap
        return .ok rows
  catch _ => return .error ("unable to open database file: " ++ path)

/-- What is around a command that names one database and reads one path at most. -/
def findHost (database path : Option String) : IO Host := do
  let rows ← database.mapM readRows
  let input ← path.mapM readInput
  return {
    stdin := input.getD (.ok "")
    read := fun _ => input.getD (.ok "")
    jsonFault := fun _ => "syntax error"
    connect := fun _ => rows.getD (.ok {}) }

def finish (outcome : Outcome) : IO UInt32 := do
  IO.print outcome.stdout
  IO.eprint outcome.stderr
  return outcome.exit.toUInt32

def preview (args : List String) : IO UInt32 := do
  match Preview.Command.ofArgs args with
  | .error refusal => finish (refusal.outcome Preview.tool)
  | .ok command => finish (Preview.run command (← findHost none command.path))

def convert (args : List String) : IO UInt32 := do
  let environment ← ["SCHEMAGRAPH_NAMESPACE", "SCHEMAGRAPH_DB"].filterMapM fun name => do
    return (← IO.getEnv name).map fun value => (name, value)
  match Convert.Command.ofArgs args environment with
  | .error refusal => finish (refusal.outcome Convert.tool)
  | .ok command =>
      let host ← findHost command.database command.action.path?
      let (outcome, rows) := command.process host
      if let some path := command.database then
        if let some rows := rows then saveRows path rows
      finish outcome

end LinkGraph.Cli

def main (args : List String) : IO UInt32 :=
  match args with
  | tool :: rest =>
      if tool = LinkGraph.Cli.Preview.tool then LinkGraph.Cli.preview rest
      else if tool = LinkGraph.Cli.Convert.tool then LinkGraph.Cli.convert rest
      else return 2
  | [] => return 2
