import LinkGraph.Json.Text

namespace LinkGraph.Json

mutual

/-- A document on one line. Containers below the first `depth` levels are only named. -/
def summaryBelow (depth level : Nat) : Json → String
  | .arr [] => "[]"
  | .obj [] => "\x7b\x7d"
  | .arr items@(_ :: _) =>
      if depth < level then "[Array]"
      else "[ " ++ ", ".intercalate (itemSummaries depth (level + 1) items) ++ " ]"
  | .obj members@(_ :: _) =>
      if depth < level then "[Object]"
      else "\x7b " ++ ", ".intercalate (memberSummaries depth (level + 1) members) ++ " \x7d"
  | j => j.compact

def itemSummaries (depth level : Nat) : List Json → List String
  | [] => []
  | j :: rest => j.summaryBelow depth level :: itemSummaries depth level rest

def memberSummaries (depth level : Nat) : List (String × Json) → List String
  | [] => []
  | (k, j) :: rest => (k ++ ": " ++ j.summaryBelow depth level) :: memberSummaries depth level rest

end

def summary (depth : Nat) (j : Json) : String := j.summaryBelow depth 0

end LinkGraph.Json
