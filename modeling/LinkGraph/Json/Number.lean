import LinkGraph.Decimal.Notation

namespace LinkGraph.Json

/-- A number of a document: a whole number of 64 bits, with or without sign, or a double. -/
inductive Number where
  | int (n : Int) (fits : -9223372036854775808 ≤ n ∧ n < 18446744073709551616)
  | double (x : Float)
  deriving DecidableEq

namespace Number

/-- A whole number that does not fit becomes the nearest double. -/
def ofInt (n : Int) : Number :=
  if fits : -9223372036854775808 ≤ n ∧ n < 18446744073709551616 then .int n fits
  else .double (Float.ofInt n)

def layout : Decimal.Layout := ⟨-5, 16⟩

def text : Number → String
  | .int n _ => toString n
  | .double x => String.ofList (layout.writeDouble x)

end Number

end LinkGraph.Json
