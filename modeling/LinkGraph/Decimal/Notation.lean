import LinkGraph.Decimal.Shortest

namespace LinkGraph.Decimal

structure Layout where
  leastPlain : Int
  firstScientific : Int
  deriving DecidableEq, Repr

def zeros (n : Nat) : List Char := List.replicate n '0'

def positional (digits : List Char) (exponent : Int) : List Char :=
  let point : Int := digits.length + exponent
  if point ≤ 0 then '0' :: '.' :: (zeros (-point).toNat ++ digits)
  else if exponent < 0 then digits.take point.toNat ++ '.' :: digits.drop point.toNat
  else digits ++ zeros exponent.toNat ++ ['.', '0']

def scientific (digits : List Char) (exponent : Int) : List Char :=
  let power : Int := digits.length + exponent - 1
  let fraction := if digits.length ≤ 1 then [] else '.' :: digits.drop 1
  digits.take 1 ++ fraction ++ 'e' :: (if power < 0 then '-' else '+') ::
    Nat.toDigits 10 power.natAbs

def Layout.write (layout : Layout) (x : Scaled) : List Char :=
  let digits := Nat.toDigits 10 x.digits
  let power : Int := digits.length + x.exponent - 1
  if layout.leastPlain ≤ power && power < layout.firstScientific then
    positional digits x.exponent
  else scientific digits x.exponent

def Layout.writeDouble (layout : Layout) (x : Float) : List Char :=
  let (negative, cell) := ofDouble x
  let magnitude := match cell with
    | none => ['0', '.', '0']
    | some cell => layout.write cell.shortest
  if negative then '-' :: magnitude else magnitude

end LinkGraph.Decimal
