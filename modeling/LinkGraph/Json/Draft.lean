import LinkGraph.Json.Basic

namespace LinkGraph.Json

/-- A document as far as its text can be read. Reading stops at the first fault of the text: there
the value is `broken`, and the containers around it are not closed. -/
inductive Draft where
  | broken
  | null
  | bool (b : Bool)
  | num (n : Option Number)
  | str (s : Option String)
  | arr (items : List Draft) (closed : Bool)
  | obj (members : List (Option String × Draft)) (closed : Bool)

namespace Draft

mutual

def value? (depth : Nat) : Draft → Option Json
  | .broken => none
  | .null => some .null
  | .bool b => some (.bool b)
  | .num n => n.map .num
  | .str s => s.map .str
  | .arr items closed =>
      match depth with
      | 0 => none
      | depth + 1 => if closed then (itemValues? depth items).map .arr else none
  | .obj members closed =>
      match depth with
      | 0 => none
      | depth + 1 =>
          if closed then (memberValues? depth members).map fun ms => .obj (distinct ms) else none

def itemValues? (depth : Nat) : List Draft → Option (List Json)
  | [] => some []
  | d :: rest => do
      let j ← d.value? depth
      let js ← itemValues? depth rest
      some (j :: js)

def memberValues? (depth : Nat) : List (Option String × Draft) → Option (List (String × Json))
  | [] => some []
  | (key, d) :: rest => do
      let k ← key
      let j ← d.value? depth
      let ms ← memberValues? depth rest
      some ((k, j) :: ms)

end

mutual

def wellFormed : Draft → Bool
  | .broken => false
  | .null | .bool _ | .num _ | .str _ => true
  | .arr items closed => closed && itemsWellFormed items
  | .obj members closed => closed && membersWellFormed members

def itemsWellFormed : List Draft → Bool
  | [] => true
  | d :: rest => d.wellFormed && itemsWellFormed rest

def membersWellFormed : List (Option String × Draft) → Bool
  | [] => true
  | (_, d) :: rest => d.wellFormed && membersWellFormed rest

end

end Draft

mutual

def toDraft : Json → Draft
  | .null => .null
  | .bool b => .bool b
  | .num n => .num (some n)
  | .str s => .str (some s)
  | .arr items => .arr (itemDrafts items) true
  | .obj members => .obj (memberDrafts members) true

def itemDrafts : List Json → List Draft
  | [] => []
  | j :: rest => j.toDraft :: itemDrafts rest

def memberDrafts : List (String × Json) → List (Option String × Draft)
  | [] => []
  | (k, j) :: rest => (some k, j.toDraft) :: memberDrafts rest

end

end LinkGraph.Json
