/-!
# The shortest decimal of a floating-point number

A positive finite double is `mantissa * 2 ^ exponent`. A decimal reads back as the
double if it lies between the midpoints to the double's two neighbours; the midpoints
themselves read back if the mantissa is even. `shortest` looks for such a decimal with
one digit, then two, and so on, always at the two neighbours of the double on the grid
of that many digits. It takes the first grid with a hit, of two hits the nearer one, and
on a tie the even one.

All comparisons are between natural numbers, so nothing is rounded.
-/

namespace NodeSchema.Decimal

/-- A positive rational `numerator * 2 ^ exponent`. -/
structure Dyadic where
  /-- The numerator. -/
  numerator : Nat
  /-- The power of two. -/
  exponent : Int

/-- A decimal `digits * 10 ^ exponent`. -/
structure Scaled where
  /-- The digits, as a number. -/
  digits : Nat
  /-- The power of ten. -/
  exponent : Int
deriving DecidableEq

/-- The decimal's share of the comparison with a dyadic number : both sides multiplied by
what clears the negative powers. -/
def Scaled.weight (d : Scaled) (x : Dyadic) : Nat :=
  d.digits * Nat.pow 10 d.exponent.toNat * Nat.pow 2 (-x.exponent).toNat

/-- The dyadic number's share of the comparison with a decimal. -/
def Dyadic.weight (x : Dyadic) (d : Scaled) : Nat :=
  x.numerator * Nat.pow 2 x.exponent.toNat * Nat.pow 10 (-d.exponent).toNat

/-- A positive finite double : the number itself and the midpoints to its neighbours. -/
structure Double where
  /-- The number. -/
  value : Dyadic
  /-- The midpoint to the next smaller double. -/
  below : Dyadic
  /-- The midpoint to the next larger double. -/
  above : Dyadic
  /-- Whether a midpoint reads back as the number. -/
  closed : Bool

/-- The double with the given bits, whose sign is left out. At a power of two the next
smaller double is only half as far away as the next larger one. -/
def Double.ofBits (bits : Nat) : Double :=
  let fraction := bits % Nat.pow 2 52
  let biased : Nat := bits / Nat.pow 2 52 % Nat.pow 2 11
  let mantissa := if biased = 0 then fraction else fraction + Nat.pow 2 52
  let exponent := Int.ofNat (max biased 1) - 1077
  { value := ⟨4 * mantissa, exponent⟩
    below := ⟨4 * mantissa - (if fraction = 0 && 1 < biased then 1 else 2), exponent⟩
    above := ⟨4 * mantissa + 2, exponent⟩
    closed := mantissa % 2 = 0 }

/-- Whether the decimal reads back as the double. -/
def Double.reads (x : Double) (d : Scaled) : Bool :=
  let low := x.below.weight d
  let here := d.weight x.value
  let high := x.above.weight d
  if x.closed then low ≤ here && here ≤ high else low < here && here < high

/-- The exponent of the first decimal digit : the largest power of ten that is not above
the number, of those that doubles can reach. -/
def Double.leading (x : Double) : Int :=
  let powers := (List.range 660).map fun i => 320 - Int.ofNat i
  (powers.find? fun e => Scaled.weight ⟨1, e⟩ x.value ≤ x.value.weight ⟨1, e⟩).getD 0

/-- The decimal of `places` digits that reads back, if the double has one. -/
def Double.atPlaces (x : Double) (places : Nat) : Option Scaled :=
  let exponent := x.leading - places + 1
  let unit : Scaled := ⟨1, exponent⟩
  let down := x.value.weight unit / unit.weight x.value
  let rest := x.value.weight unit % unit.weight x.value
  let lower : Scaled := ⟨down, exponent⟩
  let upper : Scaled := ⟨down + 1, exponent⟩
  match x.reads lower, x.reads upper with
  | true, false => some lower
  | false, true => some upper
  | false, false => none
  | true, true =>
    if 2 * rest < unit.weight x.value then some lower
    else if 2 * rest > unit.weight x.value then some upper
    else if down % 2 = 0 then some lower
    else some upper

/-- The shortest decimal that reads back. Seventeen digits are always enough. -/
def Double.shortest (x : Double) : Scaled :=
  ((List.range 17).findSome? fun i => x.atPlaces (i + 1)).getD ⟨0, 0⟩

end NodeSchema.Decimal
