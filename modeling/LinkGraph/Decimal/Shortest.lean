namespace LinkGraph.Decimal

/-- The value `digits · 10 ^ exponent`. -/
structure Scaled where
  digits : Nat
  exponent : Int
  deriving DecidableEq, Repr

/-- A positive binary value together with the values that round to it, all in quarters of
`2 ^ exponent`. The bounds belong to the interval exactly when `closed`. -/
structure Cell where
  exponent : Int
  low : Nat
  value : Nat
  high : Nat
  closed : Bool
  deriving DecidableEq, Repr

namespace Cell

/-- The cell of `mantissa · 2 ^ exponent`. Just above a power of two the gap below is half the gap
above, which `narrow` says. -/
def ofParts (mantissa : Nat) (exponent : Int) (narrow : Bool) : Cell where
  exponent
  low := 4 * mantissa - (if narrow then 1 else 2)
  value := 4 * mantissa
  high := 4 * mantissa + 2
  closed := mantissa % 2 == 0

def fraction (c : Cell) (quarters : Nat) : Nat × Nat :=
  if 2 ≤ c.exponent then (quarters * Nat.pow 2 (c.exponent - 2).toNat, 1)
  else (quarters, Nat.pow 2 (2 - c.exponent).toNat)

def admits (c : Cell) (num den digits : Nat) : Bool :=
  let (low, scale) := c.fraction c.low
  let (high, _) := c.fraction c.high
  let point := digits * num * scale
  if c.closed then low * den ≤ point && point ≤ high * den
  else low * den < point && point < high * den

/-- The one of the value's two neighbours on the grid `10 ^ place` that reads back as the value;
when both do, the nearer, and of two equally near ones the even. -/
def onGrid? (c : Cell) (place : Int) : Option Scaled :=
  let num := Nat.pow 10 place.toNat
  let den := Nat.pow 10 (-place).toNat
  let (value, scale) := c.fraction c.value
  let below := value * den / (num * scale)
  let rest := value * den % (num * scale)
  match c.admits num den below, c.admits num den (below + 1) with
  | false, false => none
  | true, false => some ⟨below, place⟩
  | false, true => some ⟨below + 1, place⟩
  | true, true =>
      if 2 * rest < num * scale then some ⟨below, place⟩
      else if num * scale < 2 * rest then some ⟨below + 1, place⟩
      else some ⟨if below % 2 = 0 then below else below + 1, place⟩

def ceilingPlace (c : Cell) : Int :=
  let (value, scale) := c.fraction c.value
  if scale ≤ value then (Nat.toDigits 10 (value / scale)).length
  else 1 - ((Nat.toDigits 10 (scale / value)).length : Int)

/-- The fewest digits that read back as the value: the coarsest grid with a neighbour in the
interval. Seventeen digits separate any two doubles, so one of the grids tried has one. -/
def shortest (c : Cell) : Scaled :=
  ((List.range 20).findSome? fun i : Nat => c.onGrid? (c.ceilingPlace - (i : Int))).getD ⟨0, 0⟩

end Cell

def ofDouble (x : Float) : Bool × Option Cell :=
  let bits := x.toBits.toNat
  let fraction : Nat := bits % Nat.pow 2 52
  let field : Nat := bits / Nat.pow 2 52 % Nat.pow 2 11
  let cell :=
    if field = 0 then
      if fraction = 0 then none else some (Cell.ofParts fraction (-1074) false)
    else
      some (Cell.ofParts (Nat.pow 2 52 + fraction) ((field : Int) - 1075)
        (fraction == 0 && field != 1))
  (bits / Nat.pow 2 63 == 1, cell)

end LinkGraph.Decimal
