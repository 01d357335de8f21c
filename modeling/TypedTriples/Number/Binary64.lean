import TypedTriples.Number.Decimal

/-!
# Double-precision numbers

The magnitudes of double precision are numbered in increasing order from
zero: index `k` is also the bit pattern of the `k`-th one. Each is a whole
multiple of `2 ^ -1074`, so the magnitudes are whole numbers in that unit and
all arithmetic is exact.

Main definitions:
* `Binary64`: a sign and the index of a magnitude.
* `Binary64.units`: the magnitude at an index, in units of `2 ^ -1074`.
* `Binary64.nearest`: the index of the magnitude nearest to a quotient, a tie
  going to the even index.
* `Decimal.toBinary64`: the double nearest to a decimal number.
-/

namespace TypedTriples

/-- A double-precision number other than a NaN, by its sign and the index of
    its magnitude. -/
structure Binary64 where
  negative : Bool
  index : Nat
  deriving DecidableEq, Repr

namespace Binary64

/-- The number of magnitudes that share an exponent. -/
def binade : Nat := Nat.pow 2 52

/-- The index of infinity. -/
def infinity : Nat := 2047 * binade

/-- The number of units in one. -/
def one : Nat := Nat.pow 2 1074

/-- The magnitude at an index, in units of `2 ^ -1074`: below two binades the
    index itself, then a significand of 53 bits times a power of two. At the
    index of infinity it is the power of two that would come next. -/
def units (index : Nat) : Nat :=
  if index < binade then index
  else (binade + index % binade) * Nat.pow 2 (index / binade - 1)

/-- The largest index whose magnitude is at most the given number of units. -/
def indexBelow (amount : Nat) : Nat :=
  let shift := Nat.log2 amount - 52
  shift * binade + amount / Nat.pow 2 shift

/-- The index of the magnitude nearest to `num / den`; halfway between two,
    the even one. -/
def nearest (num den : Nat) : Nat :=
  let below := indexBelow (num * one / den)
  let twice := 2 * (num * one)
  let middle := den * (units below + units (below + 1))
  if twice < middle then below
  else if middle < twice then below + 1
  else if below % 2 = 0 then below
  else below + 1

end Binary64

namespace Decimal

/-- The index of the magnitude nearest to `digits · 10 ^ exponent`, or that of
    infinity. Exponents far outside the range of double precision are decided
    without computing the power. -/
def magnitude (digits : Nat) (exponent : Int) : Nat :=
  if digits = 0 then 0
  else if 400 ≤ exponent then Binary64.infinity
  else if exponent + Nat.log2 digits + 1080 ≤ 0 then 0
  else
    min Binary64.infinity
      (Binary64.nearest (digits * Nat.pow 10 exponent.toNat) (Nat.pow 10 (-exponent).toNat))

/-- The double-precision number nearest to a decimal number. -/
def toBinary64 (d : Decimal) : Binary64 := ⟨d.negative, magnitude d.digits d.exponent⟩

end Decimal

end TypedTriples
