import LinkGraph.Json.Number

namespace LinkGraph.Json

/-- The digits of a numeral as far as they are read: those that fit 64 bits, and the power of ten
that makes up for the others. -/
structure Numeral where
  negative : Bool
  significand : Nat := 0
  exponent : Int := 0
  whole : Bool := true
  full : Bool := false
  deriving DecidableEq, Repr

namespace Numeral

def fits (x : Numeral) (digit : Nat) : Bool :=
  !x.full && x.significand * 10 + digit < 18446744073709551616

/-- From the first digit that does not fit on, digits before the point only raise the exponent. -/
def pushWhole (x : Numeral) (digit : Nat) : Numeral :=
  if x.fits digit then { x with significand := x.significand * 10 + digit }
  else { x with exponent := x.exponent + 1, full := true }

def point (x : Numeral) : Numeral := { x with whole := false, full := false }

def pushFraction (x : Numeral) (digit : Nat) : Numeral :=
  if x.fits digit then
    { x with significand := x.significand * 10 + digit, exponent := x.exponent - 1 }
  else { x with full := true }

def raise (x : Numeral) (power : Int) : Numeral :=
  { x with whole := false, exponent := x.exponent + power }

def powerOfTen (n : Nat) : Float := OfScientific.ofScientific 1 false n

/-- The double `significand · 10 ^ exponent`, by one multiplication or by at most two divisions.
There is none when it is too large. -/
def magnitude? (significand : Nat) (exponent : Int) : Option Float :=
  let x := (UInt64.ofNat significand).toFloat
  if significand = 0 then some x
  else if 308 < exponent then none
  else if 0 ≤ exponent then
    let y := x * powerOfTen exponent.toNat
    if y.isInf then none else some y
  else if -308 ≤ exponent then some (x / powerOfTen (-exponent).toNat)
  else if -616 ≤ exponent then some (x / powerOfTen 308 / powerOfTen (-exponent - 308).toNat)
  else some 0

/-- The number that a numeral stands for. Minus zero is a double, and so is a whole number that does
not fit 64 bits. -/
def number? (x : Numeral) : Option Number :=
  let signed : Int := if x.negative then -(x.significand : Int) else x.significand
  if h : (x.whole ∧ ¬x.full ∧ ¬(x.negative ∧ x.significand = 0)) ∧
      -9223372036854775808 ≤ signed ∧ signed < 18446744073709551616 then
    some (.int signed h.2)
  else
    (magnitude? x.significand x.exponent).map fun y => .double (if x.negative then -y else y)

inductive Stage where
  | sign
  | zero
  | whole
  | point
  | fraction
  | mark
  | markSign (negative : Bool)
  | power (negative : Bool) (digits : Nat)
  deriving DecidableEq, Repr

inductive Step where
  | more (stage : Stage) (x : Numeral)
  | complete
  | malformed
  deriving DecidableEq, Repr

def digit? (c : Char) : Option Nat :=
  if '0' ≤ c ∧ c ≤ '9' then some (c.toNat - '0'.toNat) else none

def isMark (c : Char) : Bool := c = 'e' || c = 'E'

def afterDigits (x : Numeral) (pointAllowed : Bool) (c : Char) : Step :=
  if pointAllowed && c = '.' then .more .point x.point
  else if isMark c then .more .mark x
  else .complete

def step (stage : Stage) (x : Numeral) (c : Char) : Step :=
  match stage, digit? c with
  | .sign, some 0 => .more .zero x
  | .sign, some d => .more .whole (x.pushWhole d)
  | .sign, none => .malformed
  | .zero, some _ => .malformed
  | .zero, none => x.afterDigits true c
  | .whole, some d => .more .whole (x.pushWhole d)
  | .whole, none => x.afterDigits true c
  | .point, some d => .more .fraction (x.pushFraction d)
  | .point, none => .malformed
  | .fraction, some d => .more .fraction (x.pushFraction d)
  | .fraction, none => x.afterDigits false c
  | .mark, some d => .more (.power false d) x
  | .mark, none =>
      if c = '+' then .more (.markSign false) x
      else if c = '-' then .more (.markSign true) x
      else .malformed
  | .markSign negative, some d => .more (.power negative d) x
  | .markSign _, none => .malformed
  | .power negative digits, some d => .more (.power negative (digits * 10 + d)) x
  | .power _ _, none => .complete

/-- The numeral as it stands, if it can end here: its outer `none` says that it cannot, the inner
one that no number is large enough. -/
def finish? (stage : Stage) (x : Numeral) : Option (Option Number) :=
  match stage with
  | .zero | .whole | .fraction => some x.number?
  | .power negative digits => some (x.raise (if negative then -(digits : Int) else digits)).number?
  | .sign | .point | .mark | .markSign _ => none

def complete? (stage : Stage) (x : Numeral) : List Char → Option Number
  | [] => (x.finish? stage).join
  | c :: rest =>
      match x.step stage c with
      | .more stage x => x.complete? stage rest
      | .complete | .malformed => none

def read? : List Char → Option Number
  | '-' :: rest => complete? .sign { negative := true } rest
  | cs => complete? .sign { negative := false } cs

end Numeral

end LinkGraph.Json
