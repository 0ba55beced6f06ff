import LinkGraph.Json.Shape
import LinkGraph.Link
import LinkGraph.Log

namespace LinkGraph.Conversion

structure Configuration where
  container : LinkId
  depth : Nat
  deriving DecidableEq, Repr

inductive ConfigurationError where
  | shape (e : Json.ShapeError)
  | zeroContainer
  deriving DecidableEq

def ConfigurationError.message : ConfigurationError → String
  | .shape e => e.message
  | .zeroContainer => "containerLinkId must be a positive link id"

namespace Configuration

open Json

def containerField : String := "containerLinkId"

def depthField : String := "logDepth"

def depthOf (j : Json) : Except ShapeError Nat := j.head.nat "usize"

/-- Fields are judged in the order of the document. Other keys are ignored. -/
def readMembers (container depth : Option Nat) :
    List (String × Json) → Except ShapeError (Option Nat × Option Nat)
  | [] => .ok (container, depth)
  | (key, j) :: rest => do
      if key = containerField ∧ container.isNone then
        let id ← j.head.id
        readMembers (some id) depth rest
      else if key = depthField ∧ depth.isNone then
        let n ← depthOf j
        readMembers container (some n) rest
      else readMembers container depth rest

def read (j : Json) : Except ShapeError Configuration := do
  match j with
  | .obj members =>
      match ← readMembers none none members with
      | (some container, depth) => return ⟨container, depth.getD Log.defaultDepth⟩
      | (none, _) => .error (.missingField containerField)
  | .arr [] => .error (.invalidLength 0 "struct ConversionConfig with 2 elements")
  | .arr [container] => return ⟨← container.head.id, Log.defaultDepth⟩
  | .arr (container :: depth :: rest) =>
      let container ← container.head.id
      let depth ← depthOf depth
      if rest.isEmpty then return ⟨container, depth⟩
      else .error (.invalidLength (rest.length + 2) "fewer elements in array")
  | j => .error (.invalidType j.head "struct ConversionConfig")

def ofJson (j : Json) : Except ConfigurationError Configuration :=
  match read j with
  | .error e => .error (.shape e)
  | .ok c => if c.container = 0 then .error .zeroContainer else .ok c

def document (container : LinkId) : Json := .obj [(containerField, .ofNat container)]

def describe (c : Configuration) : String :=
  "ConversionConfig \x7b container_link_id: " ++ toString c.container ++
    ", log_depth: " ++ toString c.depth ++ " \x7d"

end Configuration

end LinkGraph.Conversion
