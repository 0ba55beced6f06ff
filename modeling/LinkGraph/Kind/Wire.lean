import LinkGraph.Json.Read
import LinkGraph.Json.Shape
import LinkGraph.Kind.Basic

namespace LinkGraph.KindTable

open Json

def toJson (table : KindTable) : Json :=
  .obj (Kind.all.map fun kind => (kind.field, .ofNat (table.get kind)))

def idOf (d : Draft) : Except ReadError LinkId := do
  let head ← d.head
  shaped head.id

/-- Members are read as they come: the first fault counts, whatever follows it. Values of unknown
keys only need to be well-formed. -/
def ofMembers (done : List (Kind × LinkId)) :
    List (Option String × Draft) → Except ReadError (List (Kind × LinkId))
  | [] => .ok done
  | (none, _) :: _ => .error .malformed
  | (some key, d) :: rest =>
      match Kind.ofField? key with
      | none => if d.wellFormed then ofMembers done rest else .error .malformed
      | some kind => do
          if (done.lookup kind).isSome then .error (.shape (.duplicateField key))
          let found ← idOf d
          ofMembers ((kind, found) :: done) rest

def ofItems (closed : Bool) (done : List (Kind × LinkId)) :
    List Kind → List Draft → Except ReadError (List (Kind × LinkId))
  | [], [] => if closed then .ok done else .error .malformed
  | [], _ :: _ => .error .malformed
  | _ :: _, [] =>
      if closed then
        .error (.shape (.invalidLength done.length "struct WellKnownIds with 7 elements"))
      else .error .malformed
  | kind :: kinds, d :: rest => do
      let found ← idOf d
      ofItems closed ((kind, found) :: done) kinds rest

def ofPairs (pairs : List (Kind × LinkId)) : Except ShapeError KindTable :=
  ofLookup fun kind =>
    match pairs.lookup kind with
    | some id => .ok id
    | none => .error (.missingField kind.field)

def ofDraft (d : Draft) : Except ReadError KindTable := do
  match d with
  | .obj members closed =>
      let pairs ← ofMembers [] members
      if closed then shaped (ofPairs pairs) else .error .malformed
  | .arr items closed =>
      let pairs ← ofItems closed [] Kind.all items
      shaped (ofPairs pairs)
  | d =>
      let head ← d.head
      .error (.shape (.invalidType head "struct WellKnownIds"))

def ofText (text : String) : Except ReadError KindTable := do
  let (d, complete) := draft text
  let table ← ofDraft d
  if complete then .ok table else .error .malformed

def ofJson (j : Json) : Except ReadError KindTable :=
  match j with
  | .arr items =>
      if Kind.all.length < items.length then do
        let _ ← ofDraft (.arr (itemDrafts (items.take Kind.all.length)) true)
        .error (.shape (.invalidLength items.length "fewer elements in array"))
      else ofDraft j.toDraft
  | j => ofDraft j.toDraft

end LinkGraph.KindTable
