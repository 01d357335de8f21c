import TypedTriples.Number.Shortest

/-!
# Leading numbers

A value of a numeric kind counts for the number that it starts with, after
white space; what follows is passed over. Digits of every script count.

An integer is written with the digits as they are in the value, without the
zeros and the plus sign in front. A number with point and exponent is rounded to
double precision. A value without a leading number counts as zero, and so does
one whose number with point and exponent has digits outside ASCII.

Main definitions:
* `Text.isDecimalDigit`: the decimal digits of all scripts.
* `Number.leadingInteger?`: the integer that a value starts with.
* `Number.leadingFloat?`: the number with point and exponent that a value
  starts with.
* `Number.integerText`, `Number.floatText`: the written forms of the two.
-/

namespace TypedTriples

namespace Text

/-! ## Decimal digits

The characters with the general category `Nd` come in runs of ten, from the
digit zero of a script to its digit nine. The value of a digit is its distance
from the zero of its run.
-/

/-- The code points of the digits zero, in increasing order. -/
def digitZeros : List Nat :=
  [0x30, 0x660, 0x6F0, 0x7C0, 0x966, 0x9E6, 0xA66, 0xAE6, 0xB66, 0xBE6, 0xC66, 0xCE6, 0xD66,
   0xDE6, 0xE50, 0xED0, 0xF20, 0x1040, 0x1090, 0x17E0, 0x1810, 0x1946, 0x19D0, 0x1A80, 0x1A90,
   0x1B50, 0x1BB0, 0x1C40, 0x1C50, 0xA620, 0xA8D0, 0xA900, 0xA9D0, 0xA9F0, 0xAA50, 0xABF0, 0xFF10,
   0x104A0, 0x10D30, 0x10D40, 0x11066, 0x110F0, 0x11136, 0x111D0, 0x112F0, 0x11450, 0x114D0,
   0x11650, 0x116C0, 0x116D0, 0x116DA, 0x11730, 0x118E0, 0x11950, 0x11BF0, 0x11C50, 0x11D50,
   0x11DA0, 0x11F50, 0x16130, 0x16A60, 0x16AC0, 0x16B50, 0x16D70, 0x1CCF0, 0x1D7CE, 0x1D7D8,
   0x1D7E2, 0x1D7EC, 0x1D7F6, 0x1E140, 0x1E2F0, 0x1E4F0, 0x1E5F1, 0x1E950, 0x1FBF0]

/-- The value of a decimal digit of any script. -/
def digitValue? (c : Char) : Option Nat :=
  (digitZeros.find? fun first => first ≤ c.toNat && c.toNat < first + 10).map fun first =>
    c.toNat - first

/-- The decimal digits of all scripts. -/
def isDecimalDigit (c : Char) : Bool := (digitValue? c).isSome

end Text

namespace Number

open Text (isWhite isDecimalDigit)

/-! ## Leading numbers -/

/-- The sign that a text starts with, if any, and what follows. -/
def sign : Text → Text × Text
  | '+' :: rest => (['+'], rest)
  | '-' :: rest => (['-'], rest)
  | t => ([], t)

/-- The digits that a text starts with, and what follows. -/
def digits (t : Text) : Text × Text := (t.takeWhile isDecimalDigit, t.dropWhile isDecimalDigit)

/-- A sign and one or more digits at the start of a text. -/
def integerPart? (t : Text) : Option Text :=
  let (sign, t) := sign t
  match digits t with
  | ([], _) => none
  | (digits, _) => some (sign ++ digits)

/-- A point and the digits after it, if there is one, and what follows. -/
def fraction : Text → Text × Text
  | '.' :: t => let (digits, t) := digits t; ('.' :: digits, t)
  | t => ([], t)

/-- Digits with or without a point, or a point with digits after it, and what
    follows. -/
def mantissa? (t : Text) : Option (Text × Text) :=
  match digits t with
  | ([], _) =>
    match fraction t with
    | ([], _) => none
    | ([_], _) => none
    | (fraction, t) => some (fraction, t)
  | (whole, t) => let (fraction, t) := fraction t; some (whole ++ fraction, t)

/-- The exponent that a text starts with: the letter, a sign and digits; empty
    when one of the two is missing. -/
def exponent : Text → Text
  | c :: t =>
    if c == 'e' || c == 'E' then
      match integerPart? t with
      | some power => c :: power
      | none => []
    else []
  | [] => []

/-- A number with sign, point and exponent at the start of a text. -/
def floatPart? (t : Text) : Option Text :=
  let (sign, t) := sign t
  (mantissa? t).map fun (mantissa, t) => sign ++ mantissa ++ exponent t

/-- The integer that a value starts with, as it is written. -/
def leadingInteger? (value : Text) : Option Text := integerPart? value.trimStart

/-- The number that a value starts with, as it is written. -/
def leadingFloat? (value : Text) : Option Text := floatPart? value.trimStart

/-! ## Written forms -/

/-- Digits without the zeros in front, with the minus sign unless nothing is
    left; zero is written with one digit. -/
def canonicalDigits (negative : Bool) (digits : Text) : Text :=
  match digits.dropWhile (· == '0') with
  | [] => ['0']
  | kept => if negative then '-' :: kept else kept

/-- The canonical form of a sign and digits. -/
def canonicalInteger : Text → Text
  | '-' :: digits => canonicalDigits true digits
  | '+' :: digits => canonicalDigits false digits
  | digits => canonicalDigits false digits

/-- The written form of an integer value. -/
def integerText (value : Text) : Text :=
  match leadingInteger? value with
  | some text => canonicalInteger text
  | none => ['0']

/-- The double-precision number that a value stands for. -/
def floatValue (value : Text) : Binary64 :=
  match (leadingFloat? value).bind Decimal.ofText? with
  | some number => number.toBinary64
  | none => ⟨false, 0⟩

/-- The written form of a floating-point value. -/
def floatText (value : Text) : Text := (floatValue value).text

end Number

end TypedTriples
