import LinkGraph.Cli.Arguments
import LinkGraph.Cli.Host
import LinkGraph.Json.Read
import LinkGraph.Kind.Wire
import LinkGraph.Operation.Text
import LinkGraph.Operation.Wire
import LinkGraph.Plan.Basic
import LinkGraph.Schema.Document

namespace LinkGraph.Cli.Preview

def tool : String := "sgc"

inductive Format where
  | text
  | json
  deriving DecidableEq, Repr

def Format.ofString? : String → Option Format
  | "text" => some .text
  | "json" => some .json
  | _ => none

inductive Command where
  | estimate (path : String)
  | plan (path : String) (container first : LinkId) (format : Format)
  deriving DecidableEq, Repr

namespace Command

def path : Command → String
  | .estimate path | .plan path _ _ _ => path

def topLevel : Level := { options := [], commands := ["estimate", "plan"] }

def estimateLevel : Level := { options := [], positionals := [.path] }

def planLevel : Level where
  options := [("container", .id), ("first-id", .id), ("format", .oneOf ["text", "json"])]
  positionals := [.path]

def readPlan (found : Scan) : Except Refusal Command := do
  let path ← required found.positionals.head?
  let container ← required ((found.options.lookup "container").bind readId?)
  let first := ((found.options.lookup "first-id").bind readId?).getD 8
  let format := ((found.options.lookup "format").bind Format.ofString?).getD .text
  return .plan path container first format

def ofArgs (args : List String) : Except Refusal Command := do
  let found ← topLevel.scan {} args
  match ← required found.command with
  | ("estimate", args) =>
      let found ← estimateLevel.scan {} args
      return .estimate (← required found.positionals.head?)
  | (_, args) => readPlan (← planLevel.scan {} args)

end Command

def planText (plan : Plan) : String :=
  let root := match plan.root with
    | some id => "root #" ++ toString id
    | none => "root: none (schema has no materialized shape)"
  root ++ "\n" ++ Operation.batchText .core plan.batch

def planJson (plan : Plan) : Json :=
  .obj [("root", .ofOption .ofNat plan.root), ("kinds", KindTable.core.toJson),
    ("operations", Operation.batchJson plan.batch)]

def run (command : Command) (host : Host) : Outcome :=
  match host.input command.path with
  | .error why => .fatal tool (cannotRead command.path why)
  | .ok text =>
      match Json.read? text with
      | none => .fatal tool ("failed to parse input as JSON: " ++ host.jsonFault text)
      | some j =>
          let schema := Schema.ofJson j
          match command with
          | .estimate _ => .success (toString schema.demand ++ "\n")
          | .plan _ container first format =>
              match Plan.preview schema first ⟨container, .core⟩ with
              | .error e => .fatal tool ("compilation failed: " ++ e.message)
              | .ok plan =>
                  match format with
                  | .text => .success (planText plan)
                  | .json => .success ((planJson plan).pretty ++ "\n")

end LinkGraph.Cli.Preview
