import LinkGraph.Link

namespace LinkGraph

inductive Kind where
  | type
  | contain
  | required
  | value
  | string
  | number
  | object
  deriving DecidableEq, Repr

namespace Kind

def all : List Kind := [.type, .contain, .required, .value, .string, .number, .object]

def name : Kind → String
  | .type => "Type"
  | .contain => "Contain"
  | .required => "Required"
  | .value => "Value"
  | .string => "String"
  | .number => "Number"
  | .object => "Object"

def field : Kind → String
  | .type => "type"
  | .contain => "contain"
  | .required => "required"
  | .value => "value"
  | .string => "string"
  | .number => "number"
  | .object => "object"

def ofField? (key : String) : Option Kind := all.find? (·.field = key)

end Kind

structure KindTable where
  type : LinkId
  contain : LinkId
  required : LinkId
  value : LinkId
  string : LinkId
  number : LinkId
  object : LinkId
  deriving DecidableEq, Repr

namespace KindTable

def get (table : KindTable) : Kind → LinkId
  | .type => table.type
  | .contain => table.contain
  | .required => table.required
  | .value => table.value
  | .string => table.string
  | .number => table.number
  | .object => table.object

/-- Looks every kind up once, in the order of `Kind.all`. -/
def ofLookup [Monad m] (lookup : Kind → m LinkId) : m KindTable := do
  let type ← lookup .type
  let contain ← lookup .contain
  let required ← lookup .required
  let value ← lookup .value
  let string ← lookup .string
  let number ← lookup .number
  let object ← lookup .object
  return { type, contain, required, value, string, number, object }

def map (f : LinkId → LinkId) (table : KindTable) : KindTable where
  type := f table.type
  contain := f table.contain
  required := f table.required
  value := f table.value
  string := f table.string
  number := f table.number
  object := f table.object

def kindOf? (table : KindTable) (id : LinkId) : Option Kind :=
  Kind.all.find? fun kind => table.get kind = id

def core : KindTable := ⟨1, 2, 3, 4, 5, 6, 7⟩

theorem get_core_injective : Function.Injective core.get := by
  intro kind kind' h
  cases kind <;> cases kind' <;> first | rfl | cases h

def ids (table : KindTable) : List LinkId := Kind.all.map table.get

def describe (table : KindTable) : String :=
  "WellKnownIds \x7b type_: " ++ toString table.type ++
    ", contain: " ++ toString table.contain ++
    ", required: " ++ toString table.required ++
    ", value: " ++ toString table.value ++
    ", string: " ++ toString table.string ++
    ", number: " ++ toString table.number ++
    ", object: " ++ toString table.object ++ " \x7d"

end KindTable

end LinkGraph
