import TypedTriples.Number.Binary64

/-!
# Shortest decimals

A double-precision number is written with the fewest digits that read back as
the same number, and of those with the nearest. The multiples of a power of
ten form a grid; the coarsest grid with a point that reads back gives the
fewest digits.

Main definitions:
* `Binary64.onGrid?`: the multiple of a power of ten that stands for a
  magnitude.
* `Binary64.shortest`: the same on the coarsest grid that has one.
* `Binary64.text`: the written form, positional whatever the exponent.
-/

namespace TypedTriples.Binary64

/-- Whether `point` lies between the middles to the two neighbours, all three
    in the same unit. The middles themselves read back as the magnitude when
    its index is even. -/
def readsBack (index low high point : Nat) : Bool :=
  if index % 2 = 0 then low ≤ point && point ≤ high else low < point && point < high

/-- The multiple of `10 ^ power` that reads back as the magnitude at an index
    greater than zero, the nearer one if two do; halfway, the larger one. All
    quantities are in units of `2 ^ -1075 · 10 ^ min power 0`. -/
def onGrid? (index : Nat) (power : Int) : Option Nat :=
  let scale := Nat.pow 10 (-power).toNat
  let step := 2 * one * Nat.pow 10 power.toNat
  let amount := 2 * units index * scale
  let low := (units (index - 1) + units index) * scale
  let high := (units index + units (index + 1)) * scale
  let below := amount / step
  let fits := readsBack index low high
  match fits (below * step), fits ((below + 1) * step) with
  | true, true => if 2 * (amount - below * step) < step then some below else some (below + 1)
  | true, false => some below
  | false, true => some (below + 1)
  | false, false => none

/-- The powers of ten of the grids, the coarsest first. The first is above
    every magnitude and the last below the distance of any two. -/
def gridPowers : List Int := (List.range 640).map fun (step : Nat) => 309 - (step : Int)

/-- The digits and the power of ten that stand for the magnitude at an index
    greater than zero. -/
def shortest (index : Nat) : Nat × Int :=
  (gridPowers.findSome? fun power => (onGrid? index power).map fun digits => (digits, power)).getD
    (0, 0)

/-- The numeral of `digits · 10 ^ power` without an exponent. -/
def positional (digits : Nat) (power : Int) : Text :=
  let numeral := Text.ofNat digits
  if 0 ≤ power then numeral ++ List.replicate power.toNat '0'
  else
    let places := (-power).toNat
    if places < numeral.length then
      numeral.take (numeral.length - places) ++ '.' :: numeral.drop (numeral.length - places)
    else
      "0.".toList ++ List.replicate (places - numeral.length) '0' ++ numeral

/-- The written form of a magnitude. -/
def magnitudeText (index : Nat) : Text :=
  if index = 0 then ['0']
  else if infinity ≤ index then "INF".toList
  else
    let (digits, power) := shortest index
    positional digits power

/-- The written form of a double-precision number. -/
def text (x : Binary64) : Text :=
  if x.negative then '-' :: magnitudeText x.index else magnitudeText x.index

end TypedTriples.Binary64
