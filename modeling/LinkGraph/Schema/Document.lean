import LinkGraph.Schema.Basic

namespace LinkGraph.Schema

def strings : Json → List String
  | .arr items => items.filterMap Json.asString?
  | _ => []

def typeNames : Option Json → List String
  | some (.str s) => [s]
  | some j => strings j
  | none => []

def requiredNames : Option Json → Std.ExtTreeSet String
  | some j => Std.ExtTreeSet.ofList (strings j)
  | none => ∅

structure Parts where
  properties : Option (List (String × Schema)) := none
  /-- The schema of all elements, or those of each. -/
  items : Option (Schema ⊕ List Schema) := none

/-- Objects come before arrays, arrays before strings, strings before numbers. -/
def classify (types : List String) (title : Option String) (required : Std.ExtTreeSet String)
    (parts : Parts) : Schema :=
  if "object" ∈ types ∨ parts.properties.isSome then
    .object title (parts.properties.getD []) required
  else if "array" ∈ types ∨ parts.items.isSome then
    match parts.items with
    | some (.inl item) => .list title item
    | some (.inr items) => .tuple title items
    -- Elements of which nothing is said may be anything.
    | none => .list title (.boolean true)
  else if "string" ∈ types then .string title
  else if "number" ∈ types ∨ "integer" ∈ types then .number title
  else .other

mutual

def ofJson : Json → Schema
  | .bool b => .boolean b
  | .obj members =>
      classify (typeNames (Json.member? "type" members))
        ((Json.member? "title" members).bind Json.asString?)
        (requiredNames (Json.member? "required" members))
        { properties := propertiesOf members, items := itemsOf members }
  | .null | .num _ | .str _ | .arr _ => .other

def propertiesOf : List (String × Json) → Option (List (String × Schema))
  | [] => none
  | (key, j) :: rest => if key = "properties" then some (propertiesIn j) else propertiesOf rest

def propertiesIn : Json → List (String × Schema)
  | .obj members => ofMembers members
  | .null | .bool _ | .num _ | .str _ | .arr _ => []

def ofMembers : List (String × Json) → List (String × Schema)
  | [] => []
  | (key, j) :: rest => (key, ofJson j) :: ofMembers rest

def itemsOf : List (String × Json) → Option (Schema ⊕ List Schema)
  | [] => none
  | (key, j) :: rest =>
      if key = "items" then
        match elementsIn j with
        | some items => some (.inr items)
        | none => some (.inl (ofJson j))
      else itemsOf rest

def elementsIn : Json → Option (List Schema)
  | .arr items => some (ofElements items)
  | .null | .bool _ | .num _ | .str _ | .obj _ => none

def ofElements : List Json → List Schema
  | [] => []
  | j :: rest => ofJson j :: ofElements rest

end

end LinkGraph.Schema
