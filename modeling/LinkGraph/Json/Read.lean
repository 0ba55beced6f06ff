import LinkGraph.Json.Draft
import LinkGraph.Json.Token

namespace LinkGraph.Json

/-- A container that is being read, with what it holds so far, last first. An object also waits for
the value of a key. -/
inductive Frame where
  | arr (items : List Draft)
  | obj (members : List (Option String × Draft)) (key : Option String)

inductive Builder where
  | value (around : List Frame)
  | firstItem (around : List Frame)
  | firstKey (around : List Frame)
  | nextKey (around : List Frame) (members : List (Option String × Draft))
  | colon (around : List Frame) (members : List (Option String × Draft)) (key : Option String)
  | after (around : List Frame) (d : Draft)
  | stopped (d : Draft)

namespace Builder

def unclosed : List Frame → Draft → Draft
  | [], d => d
  | .arr items :: around, d => unclosed around (.arr (d :: items).reverse false)
  | .obj members key :: around, d => unclosed around (.obj ((key, d) :: members).reverse false)

def abandoned : Builder → Draft
  | .value around => unclosed around .broken
  | .firstItem around => unclosed around (.arr [] false)
  | .firstKey around => unclosed around (.obj [] false)
  | .nextKey around members => unclosed around (.obj members.reverse false)
  | .colon around members key => unclosed around (.obj ((key, .broken) :: members).reverse false)
  | .after around d => unclosed around d
  | .stopped d => d

def stop (b : Builder) : Builder := .stopped b.abandoned

def pushValue (around : List Frame) (otherwise : Builder) : Token → Builder
  | .openArray => .firstItem around
  | .openObject => .firstKey around
  | .null => .after around .null
  | .bool b => .after around (.bool b)
  | .num n => .after around (.num n)
  | .str s => .after around (.str s)
  | .closeArray | .closeObject | .colon | .comma | .invalid => otherwise

def push (b : Builder) (token : Token) : Builder :=
  match b, token with
  | .value around, token => pushValue around b.stop token
  | .firstItem around, .closeArray => .after around (.arr [] true)
  | .firstItem around, token =>
      pushValue (.arr [] :: around) (Builder.value (.arr [] :: around)).stop token
  | .firstKey around, .closeObject => .after around (.obj [] true)
  | .firstKey around, .str key => .colon around [] key
  | .nextKey around members, .str key => .colon around members key
  | .colon around members key, .colon => .value (.obj members key :: around)
  | .after (.arr items :: around) d, .comma => .value (.arr (d :: items) :: around)
  | .after (.arr items :: around) d, .closeArray => .after around (.arr (d :: items).reverse true)
  | .after (.obj members key :: around) d, .comma => .nextKey around ((key, d) :: members)
  | .after (.obj members key :: around) d, .closeObject =>
      .after around (.obj ((key, d) :: members).reverse true)
  | .stopped d, _ => .stopped d
  | _, _ => b.stop

end Builder

structure Reader where
  mode : Mode
  built : Builder

namespace Reader

def start : Reader := ⟨.between, .value []⟩

def pushTokens (mode : Mode) (built : Builder) (tokens : List Token) : Reader :=
  ⟨mode, tokens.foldl Builder.push built⟩

def step (r : Reader) (c : Char) : Reader :=
  let (mode, tokens) := r.mode.step c
  pushTokens mode r.built tokens

def run (r : Reader) (cs : List Char) : Reader := cs.foldl step r

end Reader

def draft (text : String) : Draft × Bool :=
  let r := Reader.start.run text.toList
  match r.mode.finish.foldl Builder.push r.built with
  | .after [] d => (d, true)
  | b => (b.abandoned, false)

def maxDepth : Nat := 127

def read? (text : String) : Option Json :=
  let (d, complete) := draft text
  if complete then d.value? maxDepth else none

end LinkGraph.Json
