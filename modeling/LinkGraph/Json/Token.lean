import LinkGraph.Json.Numeral

namespace LinkGraph.Json

/-- A piece of a document's text. A numeral too large for a double and a string with half a
surrogate pair are well-formed pieces without a value. -/
inductive Token where
  | openArray
  | closeArray
  | openObject
  | closeObject
  | colon
  | comma
  | null
  | bool (b : Bool)
  | num (n : Option Number)
  | str (s : Option String)
  | invalid
  deriving DecidableEq

/-- A string as far as it is read, last character first; `high` is the first half of a pair whose
second half must follow at once. -/
structure Spelling where
  chars : Option (List Char)
  high : Option Nat
  deriving DecidableEq

namespace Spelling

def empty : Spelling := ⟨some [], none⟩

def push (s : Spelling) (c : Char) : Spelling :=
  ⟨if s.high.isSome then none else s.chars.map (c :: ·), none⟩

def pushUnit (s : Spelling) (unit : Nat) : Spelling :=
  match s.high with
  | some high =>
      if 0xdc00 ≤ unit && unit < 0xe000 then
        ⟨s.chars.map (Char.ofNat (0x10000 + (high - 0xd800) * 0x400 + (unit - 0xdc00)) :: ·), none⟩
      else ⟨none, none⟩
  | none =>
      if 0xd800 ≤ unit && unit < 0xdc00 then ⟨s.chars, some unit⟩
      else if 0xdc00 ≤ unit && unit < 0xe000 then ⟨none, none⟩
      else s.push (Char.ofNat unit)

def text? (s : Spelling) : Option String :=
  if s.high.isSome then none else s.chars.map fun cs => String.ofList cs.reverse

end Spelling

def hexDigit? (c : Char) : Option Nat :=
  if '0' ≤ c ∧ c ≤ '9' then some (c.toNat - '0'.toNat)
  else if 'a' ≤ c ∧ c ≤ 'f' then some (c.toNat - 'a'.toNat + 10)
  else if 'A' ≤ c ∧ c ≤ 'F' then some (c.toNat - 'A'.toNat + 10)
  else none

def escaped? (c : Char) : Option Char :=
  match c with
  | '\"' => some '\"'
  | '\\' => some '\\'
  | '/' => some '/'
  | 'b' => some '\x08'
  | 'f' => some '\x0c'
  | 'n' => some '\n'
  | 'r' => some '\r'
  | 't' => some '\t'
  | _ => none

inductive Mode where
  | between
  | word (rest : List Char) (token : Token)
  | numeral (stage : Numeral.Stage) (x : Numeral)
  | string (s : Spelling)
  | escape (s : Spelling)
  | unit (s : Spelling) (left : Nat) (value : Nat)
  | halted
  deriving DecidableEq

namespace Mode

def fail : Mode × List Token := (.halted, [.invalid])

def start (c : Char) : Mode × List Token :=
  match c with
  | ' ' | '\t' | '\n' | '\r' => (.between, [])
  | '[' => (.between, [.openArray])
  | ']' => (.between, [.closeArray])
  | '\x7b' => (.between, [.openObject])
  | '\x7d' => (.between, [.closeObject])
  | ':' => (.between, [.colon])
  | ',' => (.between, [.comma])
  | '\"' => (.string .empty, [])
  | 'n' => (.word ['u', 'l', 'l'] .null, [])
  | 't' => (.word ['r', 'u', 'e'] (.bool true), [])
  | 'f' => (.word ['a', 'l', 's', 'e'] (.bool false), [])
  | '-' => (.numeral .sign { negative := true }, [])
  | _ =>
      match Numeral.step .sign { negative := false } c with
      | .more stage x => (.numeral stage x, [])
      | .complete | .malformed => fail

/-- The next mode and the tokens that the character completes. A numeral ends at the first character
that cannot belong to it, which is then read afresh; so a character completes at most two. -/
def step (mode : Mode) (c : Char) : Mode × List Token :=
  match mode with
  | .between => start c
  | .word [] _ => fail
  | .word [last] token => if c = last then (.between, [token]) else fail
  | .word (next :: rest) token => if c = next then (.word rest token, []) else fail
  | .numeral stage x =>
      match x.step stage c, x.finish? stage with
      | .more stage x, _ => (.numeral stage x, [])
      | .complete, some n =>
          let (mode, tokens) := start c
          (mode, .num n :: tokens)
      | .complete, none | .malformed, _ => fail
  | .string s =>
      if c = '\"' then (.between, [.str s.text?])
      else if c = '\\' then (.escape s, [])
      else if c.toNat < 0x20 then fail
      else (.string (s.push c), [])
  | .escape s =>
      if c = 'u' then (.unit s 4 0, [])
      else match escaped? c with
        | some d => (.string (s.push d), [])
        | none => fail
  | .unit s left value =>
      match hexDigit? c with
      | none => fail
      | some d =>
          let value := value * 16 + d
          if left ≤ 1 then (.string (s.pushUnit value), []) else (.unit s (left - 1) value, [])
  | .halted => (.halted, [])

def finish : Mode → List Token
  | .between | .halted => []
  | .numeral stage x =>
      match x.finish? stage with
      | some n => [.num n]
      | none => [.invalid]
  | .word _ _ | .string _ | .escape _ | .unit _ _ _ => [.invalid]

end Mode

end LinkGraph.Json
