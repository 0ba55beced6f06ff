import LinkGraph.Json.Read
import LinkGraph.Json.Shape
import LinkGraph.Operation.Basic

namespace LinkGraph.Operation

open Json

inductive Tag where
  | insertNode
  | insertValue
  deriving DecidableEq, Repr

def Tag.name : Tag → String
  | .insertNode => "insert-node"
  | .insertValue => "insert-value"

def Tag.ofName (name : String) : Except ShapeError Tag :=
  if name = Tag.insertNode.name then .ok .insertNode
  else if name = Tag.insertValue.name then .ok .insertValue
  else .error (.unknownVariant name "`insert-node` or `insert-value`")

def toJson : Operation → Json
  | .insertNode id node =>
      .obj ([("op", .str Tag.insertNode.name), ("id", .ofNat id), ("kind", .ofNat node.kind)] ++
        node.source.toList.map (fun id => ("from", .ofNat id)) ++
        node.dest.toList.map (fun id => ("to", .ofNat id)))
  | .insertValue target value =>
      .obj [("op", .str Tag.insertValue.name), ("target", .ofNat target), ("value", .str value)]

def batchJson (batch : Batch) : Json := .arr (batch.map toJson)

def optionalId (j : Json) : Except ShapeError (Option LinkId) :=
  if j.isNull then .ok none else some <$> j.head.id

def once (name : String) (before : Option α) (read : Except ShapeError α) :
    Except ShapeError (Option α) :=
  if before.isSome then .error (.duplicateField name) else some <$> read

def must (name : String) : Option α → Except ShapeError α
  | some a => .ok a
  | none => .error (.missingField name)

structure NodeFields where
  id : Option LinkId := none
  kind : Option LinkId := none
  source : Option (Option LinkId) := none
  dest : Option (Option LinkId) := none

def NodeFields.add (fields : NodeFields) (key : String) (j : Json) :
    Except ShapeError NodeFields := do
  match key with
  | "id" => return { fields with id := ← once key fields.id j.head.id }
  | "kind" => return { fields with kind := ← once key fields.kind j.head.id }
  | "from" => return { fields with source := ← once key fields.source (optionalId j) }
  | "to" => return { fields with dest := ← once key fields.dest (optionalId j) }
  | _ => return fields

def NodeFields.finish (fields : NodeFields) : Except ShapeError Operation := do
  let id ← must "id" fields.id
  let kind ← must "kind" fields.kind
  return .insertNode id ⟨kind, fields.source.getD none, fields.dest.getD none⟩

structure ValueFields where
  target : Option LinkId := none
  value : Option String := none

def ValueFields.add (fields : ValueFields) (key : String) (j : Json) :
    Except ShapeError ValueFields := do
  match key with
  | "target" => return { fields with target := ← once key fields.target j.head.id }
  | "value" => return { fields with value := ← once key fields.value (j.head.string "a string") }
  | _ => return fields

def ValueFields.finish (fields : ValueFields) : Except ShapeError Operation := do
  let target ← must "target" fields.target
  let value ← must "value" fields.value
  return .insertValue target value

def ofFields (tag : Tag) (members : List (String × Json)) : Except ShapeError Operation := do
  match tag with
  | .insertNode =>
      (← members.foldlM (fun fields (key, j) => NodeFields.add fields key j) {}).finish
  | .insertValue =>
      (← members.foldlM (fun fields (key, j) => ValueFields.add fields key j) {}).finish

def tooShort (found : Nat) (variant : String) : Except ShapeError α :=
  .error (.invalidLength found ("struct variant Operation::" ++ variant))

def tooLong (found most : Nat) : Except ShapeError α :=
  .error (.invalidLength found (toString most ++ " elements in sequence"))

def ofItems (tag : Tag) (items : List Json) : Except ShapeError Operation := do
  match tag with
  | .insertNode =>
      let variant := "InsertNode with 4 elements"
      match items with
      | [] => tooShort 0 variant
      | id :: rest =>
          let id ← id.head.id
          match rest with
          | [] => tooShort 1 variant
          | kind :: ends =>
              let kind ← kind.head.id
              let source ← (ends[0]?).elim (.ok none) optionalId
              let dest ← (ends[1]?).elim (.ok none) optionalId
              if 4 < items.length then tooLong items.length 4
              else return .insertNode id ⟨kind, source, dest⟩
  | .insertValue =>
      let variant := "InsertValue with 2 elements"
      match items with
      | [] => tooShort 0 variant
      | target :: rest =>
          let target ← target.head.id
          match rest with
          | [] => tooShort 1 variant
          | value :: _ =>
              let value ← value.head.string "a string"
              if 2 < items.length then tooLong items.length 2
              else return .insertValue target value

def tagOf (d : Draft) : Except ReadError Tag := do
  let head ← d.head
  let name ← shaped (head.string "variant identifier")
  shaped (Tag.ofName name)

/-- Separates the tag from the other members. The tag is judged where it stands, the others only
when all have been read. -/
def splitMembers (depth : Nat) (tag : Option Tag) (done : List (String × Json)) :
    List (Option String × Draft) → Except ReadError (Option Tag × List (String × Json))
  | [] => .ok (tag, done.reverse)
  | (none, _) :: _ => .error .malformed
  | (some key, d) :: rest => do
      if key = "op" then
        if tag.isSome then .error (.shape (.duplicateField key))
        let found ← tagOf d
        splitMembers depth (some found) done rest
      else
        let j ← d.value depth
        splitMembers depth tag ((key, j) :: done) rest

def ofDraft (depth : Nat) (d : Draft) : Except ReadError Operation := do
  match d with
  | .obj members closed =>
      let (tag, fields) ← splitMembers depth none [] members
      if !closed then .error .malformed
      let tag ← shaped (must "op" tag)
      shaped (ofFields tag fields)
  | .arr [] closed =>
      if !closed then .error .malformed
      shaped (.error (.missingField "op"))
  | .arr (first :: rest) closed =>
      let tag ← tagOf first
      let items ← rest.mapM (Draft.value depth)
      if !closed then .error .malformed
      shaped (ofItems tag items)
  | d =>
      let head ← d.head
      .error (.shape (.invalidType head "internally tagged enum Operation"))

def batchOfDraft (d : Draft) : Except ReadError Batch := do
  match d with
  | .arr items closed =>
      let batch ← items.mapM (ofDraft (maxDepth - 2))
      if closed then .ok batch else .error .malformed
  | d =>
      let head ← d.head
      .error (.shape (.invalidType head "a sequence"))

def batchOfText (text : String) : Except ReadError Batch := do
  let (d, complete) := draft text
  let batch ← batchOfDraft d
  if complete then .ok batch else .error .malformed

def batchOfJson (j : Json) : Except ReadError Batch := batchOfDraft j.toDraft

end LinkGraph.Operation
