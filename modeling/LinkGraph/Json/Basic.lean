import LinkGraph.Json.Number

namespace LinkGraph

/-- A document. Objects keep the order of their members. -/
inductive Json where
  | null
  | bool (b : Bool)
  | num (n : Json.Number)
  | str (s : String)
  | arr (items : List Json)
  | obj (members : List (String × Json))

namespace Json

instance : Inhabited Json := ⟨.null⟩

def ofNat (n : Nat) : Json := .num (.ofInt n)

def ofOption (f : α → Json) : Option α → Json
  | none => .null
  | some a => f a

/-- A repeated key keeps its first position and takes its last value. -/
def put (key : String) (value : Json) : List (String × Json) → List (String × Json)
  | [] => [(key, value)]
  | (k, v) :: rest => if k = key then (k, value) :: rest else (k, v) :: put key value rest

def distinct (members : List (String × Json)) : List (String × Json) :=
  members.foldl (fun done (k, v) => put k v done) []

def member? (key : String) (members : List (String × Json)) : Option Json :=
  members.lookup key

def get? (key : String) : Json → Option Json
  | .obj members => member? key members
  | _ => none

def asString? : Json → Option String
  | .str s => some s
  | _ => none

def isNull : Json → Bool
  | .null => true
  | _ => false

end Json

end LinkGraph
