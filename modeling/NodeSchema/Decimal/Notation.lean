import NodeSchema.Decimal.Shortest

/-!
# Writing a floating-point number

A double is written with the fewest digits that read back. If the exponent of its first
digit is between -5 and 15 the digits stand around a decimal point, with at least one on
each side; otherwise one digit stands before the point, and the exponent follows with
its sign.
-/

namespace NodeSchema.Decimal

/-- The digits of a number without the zeros at its end. -/
def significantDigits (n : Nat) : List Char :=
  ((Nat.toDigits 10 n).reverse.dropWhile (· = '0')).reverse

/-- The given digits with a decimal point after the first `places` of them, filled up with
zeros where they do not reach. -/
def positional (digits : List Char) (places : Nat) : List Char :=
  let whole := digits.take places ++ List.replicate (places - digits.length) '0'
  let fraction := digits.drop places
  whole ++ '.' :: (if fraction.isEmpty then ['0'] else fraction)

/-- The given digits with a decimal point after the first of them, and the exponent. -/
def scientific (digits : List Char) (exponent : Int) : List Char :=
  let fraction := digits.drop 1
  digits.take 1 ++ (if fraction.isEmpty then [] else '.' :: fraction)
    ++ ['e', if exponent < 0 then '-' else '+'] ++ (toString exponent.natAbs).toList

/-- The given digits, the first of which has the given exponent. -/
def layout (digits : List Char) (exponent : Int) : List Char :=
  if exponent < -5 || 15 < exponent then scientific digits exponent
  else if exponent < 0 then
    ['0', '.'] ++ List.replicate (-exponent - 1).toNat '0' ++ digits
  else positional digits (exponent.toNat + 1)

/-- The text of a finite double. -/
def ofFloat (f : Float) : String :=
  let bits := f.toBits.toNat
  let sign := if bits / Nat.pow 2 63 = 1 then "-" else ""
  let size := bits % Nat.pow 2 63
  if size = 0 then sign ++ "0.0"
  else
    let decimal := (Double.ofBits size).shortest
    let exponent := decimal.exponent + (Nat.toDigits 10 decimal.digits).length - 1
    sign ++ String.ofList (layout (significantDigits decimal.digits) exponent)

end NodeSchema.Decimal
