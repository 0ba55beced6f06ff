import LinkGraph.Operation.Basic
import LinkGraph.Text.Padding
import LinkGraph.Text.Quoted

namespace LinkGraph.Operation

def idText (id : LinkId) : String := "#" ++ toString id

/-- A kind by its name, any other link by its id. -/
def label (kinds : KindTable) (id : LinkId) : String :=
  match kinds.kindOf? id with
  | some kind => kind.name
  | none => idText id

/-- One line without its end. A node that hangs on one link at both ends shows it once. -/
def text (kinds : KindTable) : Operation → String
  | .insertNode id node =>
      let label := label kinds
      let head := Text.padLeft 5 (idText id) ++ " " ++ Text.padRight 10 (label node.kind)
      match node.source, node.dest with
      | some source, some dest =>
          if source = dest then head ++ " @ " ++ label source
          else head ++ " " ++ label source ++ " -> " ++ label dest
      | some source, none => head ++ " " ++ label source ++ " ->"
      | none, some dest => head ++ " -> " ++ label dest
      | none, none => Text.padLeft 5 (idText id) ++ " " ++ label node.kind
  | .insertValue _ value => "      = " ++ Text.quoted value

def batchText (kinds : KindTable) (batch : Batch) : String :=
  String.join (batch.map fun op => op.text kinds ++ "\n")

end LinkGraph.Operation
