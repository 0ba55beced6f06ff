import LinkGraph.Json.Draft
import LinkGraph.Json.Text
import LinkGraph.Text.Quoted

namespace LinkGraph.Json

/-- The outermost layer of a document: a scalar whole, a container by its kind only. -/
inductive Head where
  | null
  | bool (b : Bool)
  | num (n : Number)
  | str (s : String)
  | arr
  | obj
  deriving DecidableEq

def Head.describe : Head → String
  | .null => "null"
  | .bool b => "boolean `" ++ boolText b ++ "`"
  | .num (.int n fits) => "integer `" ++ (Number.int n fits).text ++ "`"
  | .num (.double x) => "floating point `" ++ (Number.double x).text ++ "`"
  | .str s => "string " ++ Text.quoted s
  | .arr => "sequence"
  | .obj => "map"

inductive ShapeError where
  | missingField (name : String)
  | duplicateField (name : String)
  | unknownVariant (name : String) (expected : String)
  | invalidType (found : Head) (expected : String)
  | invalidValue (found : Int) (expected : String)
  | invalidLength (found : Nat) (expected : String)
  deriving DecidableEq

def ShapeError.message : ShapeError → String
  | .missingField name => "missing field `" ++ name ++ "`"
  | .duplicateField name => "duplicate field `" ++ name ++ "`"
  | .unknownVariant name expected => "unknown variant `" ++ name ++ "`, expected " ++ expected
  | .invalidType found expected =>
      "invalid type: " ++ found.describe ++ ", expected " ++ expected
  | .invalidValue found expected =>
      "invalid value: integer `" ++ toString found ++ "`, expected " ++ expected
  | .invalidLength found expected =>
      "invalid length " ++ toString found ++ ", expected " ++ expected

inductive ReadError where
  | malformed
  | shape (e : ShapeError)
  deriving DecidableEq

def head : Json → Head
  | .null => .null
  | .bool b => .bool b
  | .num n => .num n
  | .str s => .str s
  | .arr _ => .arr
  | .obj _ => .obj

def Draft.head : Draft → Except ReadError Head
  | .null => .ok .null
  | .bool b => .ok (.bool b)
  | .num (some n) => .ok (.num n)
  | .str (some s) => .ok (.str s)
  | .arr _ _ => .ok .arr
  | .obj _ _ => .ok .obj
  | .broken | .num none | .str none => .error .malformed

def Draft.value (depth : Nat) (d : Draft) : Except ReadError Json :=
  match d.value? depth with
  | some j => .ok j
  | none => .error .malformed

namespace Head

def nat (expected : String) : Head → Except ShapeError Nat
  | .num (.int n _) => if 0 ≤ n then .ok n.toNat else .error (.invalidValue n expected)
  | head => .error (.invalidType head expected)

def string (expected : String) : Head → Except ShapeError String
  | .str s => .ok s
  | head => .error (.invalidType head expected)

end Head

def shaped : Except ShapeError α → Except ReadError α
  | .ok a => .ok a
  | .error e => .error (.shape e)

def idType : String := "u64"

def Head.id (h : Head) : Except ShapeError Nat := h.nat idType

end LinkGraph.Json
