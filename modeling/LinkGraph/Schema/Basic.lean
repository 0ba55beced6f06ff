import LinkGraph.Json.Basic
import Std.Data.ExtTreeSet

namespace LinkGraph

inductive Schema where
  | boolean (value : Bool)
  | object (title : Option String) (properties : List (String × Schema))
      (required : Std.ExtTreeSet String)
  /-- All elements follow one schema. -/
  | list (title : Option String) (item : Schema)
  /-- Each element follows the schema at its place. -/
  | tuple (title : Option String) (items : List Schema)
  | string (title : Option String)
  | number (title : Option String)
  | other

namespace Schema

instance : Inhabited Schema := ⟨.other⟩

def title? : Schema → Option String
  | .object title _ _ | .list title _ | .tuple title _ | .string title | .number title => title
  | .boolean _ | .other => none

/-- Whether the schema stands for a node of its own. A list stands for its item. -/
def hasNode : Schema → Bool
  | .other => false
  | .list _ item => item.hasNode
  | .boolean _ | .object _ _ _ | .tuple _ _ | .string _ | .number _ => true

end Schema

end LinkGraph
