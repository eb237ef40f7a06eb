import NodeSchema.Decimal.Notation
import NodeSchema.Json.Text

/-!
# Reading JSON numbers

A number is an integer if it has neither fraction nor exponent and fits 64 bits, and a
double otherwise. Its digits are gathered in a significand of 64 bits : a digit before
the point that no longer fits adds one to the decimal exponent, one after it is dropped.
The double is the significand rounded to a double, then multiplied or divided by the
power of ten.
-/

namespace NodeSchema.Json

/-- A number as it is told apart in messages. -/
inductive Number where
  /-- An integer of 64 bits. -/
  | integer (n : Int)
  /-- Any other number. -/
  | double (f : Float)

/-- The value of a decimal digit. -/
def digitValue (c : Char) : Nat :=
  c.toNat - '0'.toNat

/-- The significand and decimal exponent gathered so far. -/
structure Digits where
  /-- The digits that fit. -/
  significand : Nat
  /-- The power of ten that the significand is to be multiplied by. -/
  exponent : Int
  /-- Whether a digit has not fitted. -/
  full : Bool

/-- The significand with one more digit, if that fits 64 bits. -/
def Digits.extended? (d : Digits) (c : Char) : Option Nat :=
  let extended := d.significand * 10 + digitValue c
  if d.full || UInt64.size ≤ extended then none else some extended

/-- One more digit before the point. -/
def Digits.addWhole (d : Digits) (c : Char) : Digits :=
  match d.extended? c with
  | some significand => { d with significand }
  | none => { d with exponent := d.exponent + 1, full := true }

/-- One more digit after the point. -/
def Digits.addFraction (d : Digits) (c : Char) : Digits :=
  match d.extended? c with
  | some significand => { d with significand, exponent := d.exponent - 1 }
  | none => { d with full := true }

/-- A power of ten up to `10 ^ 308`. -/
def power (e : Nat) : Float :=
  Float.ofScientific 1 false e

/-- Divides by `10 ^ e`, in steps of `10 ^ 308` while that is not yet zero. -/
def lowered (f : Float) (e : Nat) : Float :=
  if e ≤ 308 then f / power e
  else if f == 0 then f
  else lowered (f / power 308) (e - 308)
termination_by e

/-- The double of a significand and a decimal exponent, if it is finite. -/
def scaled? (significand : Nat) (exponent : Int) : Option Float :=
  let f := significand.toUInt64.toFloat
  if exponent < 0 then some (lowered f exponent.natAbs)
  else if exponent ≤ 308 then
    let product := f * power exponent.toNat
    if product.isInf then none else some product
  else if f == 0 then some f
  else none

/-- The double with its sign. -/
def signed (negative : Bool) (f : Float) : Float :=
  if negative then -f else f

/-- The double of the digits read, before the text that remains. -/
def finish (negative : Bool) (digits : Digits) (exponent : Int) (rest : List Char) :
    Except Stop (Number × List Char) :=
  match scaled? digits.significand (digits.exponent + exponent) with
  | some f => .ok (.double (signed negative f), rest)
  | none => .error (.before .numberOutOfRange rest)

/-- The digits of an exponent, from `exponent` on : the text after them and the exponent,
or `none` at the digit that makes it too large. -/
def readExponentDigits (exponent : Nat) : List Char → Option Nat × List Char
  | [] => (some exponent, [])
  | c :: rest =>
    if !c.isDigit then (some exponent, c :: rest)
    else if 2147483647 < exponent * 10 + digitValue c then (none, rest)
    else readExponentDigits (exponent * 10 + digitValue c) rest

/-- Reads an exponent after its `e`, and gives the number. -/
def readExponent (negative : Bool) (digits : Digits) (s : List Char) :
    Except Stop (Number × List Char) :=
  let negated := s.head? = some '-'
  let unsigned := if negated || s.head? = some '+' then s.drop 1 else s
  match unsigned with
  | [] => .error (.before .endInValue [])
  | c :: rest =>
    if !c.isDigit then .error (.on .invalidNumber unsigned)
    else
      match readExponentDigits (digitValue c) rest with
      | (some exponent, left) =>
        finish negative digits (if negated then -Int.ofNat exponent else Int.ofNat exponent) left
      | (none, left) =>
        if digits.significand ≠ 0 && !negated then .error (.before .numberOutOfRange left)
        else .ok (.double (signed negative 0), left.dropWhile Char.isDigit)

/-- Gives the number whose digits have been read, unless an exponent follows. -/
def readTail (negative : Bool) (digits : Digits) (s : List Char) :
    Except Stop (Number × List Char) :=
  match s with
  | 'e' :: rest => readExponent negative digits rest
  | 'E' :: rest => readExponent negative digits rest
  | _ => finish negative digits 0 s

/-- The number that an integer's digits stand for. -/
def Number.ofDigits (negative : Bool) (n : Nat) : Number :=
  if !negative then .integer n
  else if n = 0 || Nat.pow 2 63 < n then .double (-n.toUInt64.toFloat)
  else .integer (-n)

/-- Reads the rest of a number whose whole digits have been read. -/
def readFraction (negative : Bool) (digits : Digits) (s : List Char) :
    Except Stop (Number × List Char) :=
  match s with
  | '.' :: rest =>
    let fraction := rest.takeWhile Char.isDigit
    let left := rest.dropWhile Char.isDigit
    if fraction.isEmpty then
      .error (.on (if left.isEmpty then .endInValue else .invalidNumber) left)
    else
      readTail negative (fraction.foldl Digits.addFraction { digits with full := false }) left
  | 'e' :: rest => readExponent negative digits rest
  | 'E' :: rest => readExponent negative digits rest
  | _ =>
    if digits.full then finish negative digits 0 s
    else .ok (.ofDigits negative digits.significand, s)

/-- Reads a number after its sign. -/
def readUnsigned (negative : Bool) (s : List Char) : Except Stop (Number × List Char) :=
  match s with
  | [] => .error (.before .endInValue [])
  | '0' :: rest =>
    match rest with
    | c :: _ =>
      if c.isDigit then .error (.on .invalidNumber rest)
      else readFraction negative ⟨0, 0, false⟩ rest
    | [] => readFraction negative ⟨0, 0, false⟩ rest
  | c :: _ =>
    if c.isDigit then
      readFraction negative ((s.takeWhile Char.isDigit).foldl Digits.addWhole ⟨0, 0, false⟩)
        (s.dropWhile Char.isDigit)
    else .error (.on .invalidNumber s)

/-- The description of a number in a message. -/
def Number.describe : Number → String
  | .integer n => "integer `" ++ toString n ++ "`"
  | .double f => "floating point `" ++ Decimal.ofFloat f ++ "`"

end NodeSchema.Json
