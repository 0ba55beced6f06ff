import LinkGraph.Json.Numeral
import LinkGraph.Json.Read
import LinkGraph.Json.Text

namespace LinkGraph.Json

/-- What a number's text is read as. A whole number comes back as it was; a double may come back as
a neighbour, since reading rounds more than once. -/
def Number.reread : Number → Number
  | .int n fits => .int n fits
  | .double x => (Numeral.read? (Number.layout.writeDouble x)).getD (.double x)

mutual

def reread : Json → Json
  | .null => .null
  | .bool b => .bool b
  | .num n => .num n.reread
  | .str s => .str s
  | .arr items => .arr (rereadItems items)
  | .obj members => .obj (rereadMembers members)

def rereadItems : List Json → List Json
  | [] => []
  | j :: rest => j.reread :: rereadItems rest

def rereadMembers : List (String × Json) → List (String × Json)
  | [] => []
  | (k, j) :: rest => (k, j.reread) :: rereadMembers rest

end

mutual

def depth : Json → Nat
  | .null | .bool _ | .num _ | .str _ => 0
  | .arr items => itemsDepth items + 1
  | .obj members => membersDepth members + 1

def itemsDepth : List Json → Nat
  | [] => 0
  | j :: rest => max j.depth (itemsDepth rest)

def membersDepth : List (String × Json) → Nat
  | [] => 0
  | (_, j) :: rest => max j.depth (membersDepth rest)

end

def excessColumn (column : Nat) (quoted : Bool) (left : Nat) : List Char → Nat
  | [] => column
  | c :: rest =>
      let column := column + c.utf8Size
      if quoted then
        match c, rest with
        | '\\', escaped :: rest => excessColumn (column + escaped.utf8Size) true left rest
        | _, rest => excessColumn column (c ≠ '\"') left rest
      else if c = '\"' then excessColumn column true left rest
      else if c = '[' || c = '\x7b' then
        match left with
        | 0 => column
        | left + 1 => excessColumn column false left rest
      else if c = ']' || c = '\x7d' then excessColumn column false (left + 1) rest
      else excessColumn column false left rest

/-- What a document's own text is read as. -/
def readBack (j : Json) : Except String Json :=
  if j.depth ≤ maxDepth then .ok j.reread
  else
    let column := excessColumn 0 false maxDepth j.compact.toList
    .error ("recursion limit exceeded at line 1 column " ++ toString column)

end LinkGraph.Json
