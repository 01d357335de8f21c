import TypedTriples.Text.Basic

/-!
# Decimal numbers

A decimal number is an integer times a power of ten. Numerals of the form
`[sign] digits [. digits] [e [sign] digits]` are read exactly, whatever their
length and exponent.
-/

namespace TypedTriples

/-- The number `± digits · 10 ^ exponent`. Zero has a sign. -/
structure Decimal where
  negative : Bool
  digits : Nat
  exponent : Int
  deriving DecidableEq, Repr

namespace Decimal

/-- Whether a text starts with a minus sign, and what follows the sign. -/
def readSign : Text → Bool × Text
  | '-' :: rest => (true, rest)
  | '+' :: rest => (false, rest)
  | t => (false, t)

/-- The ASCII digits that a text starts with, and what follows. -/
def readDigits (t : Text) : Text × Text := (t.takeWhile Char.isDigit, t.dropWhile Char.isDigit)

/-- The digits after the point that a text starts with, if any. -/
def readFraction : Text → Text × Text
  | '.' :: rest => readDigits rest
  | t => ([], t)

/-- The exponent that a text consists of; none is zero. -/
def readExponent? : Text → Option Int
  | [] => some 0
  | c :: rest =>
    if c == 'e' || c == 'E' then
      let (negative, rest) := readSign rest
      match readDigits rest with
      | ([], _) => none
      | (digits, []) => some (if negative then -(Text.toNat digits : Int) else Text.toNat digits)
      | _ => none
    else none

/-- The number that a numeral of ASCII digits denotes. -/
def ofText? (t : Text) : Option Decimal :=
  let (negative, t) := readSign t
  let (whole, t) := readDigits t
  let (fraction, t) := readFraction t
  if whole.isEmpty && fraction.isEmpty then none
  else
    (readExponent? t).map fun power =>
      { negative := negative
        digits := Text.toNat (whole ++ fraction)
        exponent := power - fraction.length }

end Decimal

end TypedTriples
