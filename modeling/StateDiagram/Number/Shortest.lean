import StateDiagram.Number.Binary64

/-!
# `Number.Shortest` — the decimal text of a double precision number

A number is written with the fewest digits that read back as the same number; of those with that many
digits, the nearest to the number, and of two equally near the larger. The text never has an exponent.

The decimals that read back fill an interval around the number, its ends included if the mantissa is
even. A grid of decimals `10 ^ g` apart has a point in the interval only if one of the number's two
neighbours on the grid is in it, so the coarsest such grid is found by looking at these.

## Contents

* `compareScaled` — decimals against multiples of a power of two, exactly;
* `Spacing` — a finite number with the ends of its interval, in quarters of its last bit;
* `Spacing.shortest` — the digits and the grid;
* `positional` — digits on a grid as text;
* `Binary64.text` — the text of a number.
-/

namespace StateDiagram

open Binary64 (pow2 pow10)

/-- Compare `d · 10 ^ g` with `x · 2 ^ e`. -/
def compareScaled (d : Nat) (g : Int) (x : Nat) (e : Int) : Ordering :=
  compare (d * pow10 g * pow2 (-e)) (x * pow2 e * pow10 (-g))

/-- A positive number and the interval of reals that round to it, all in units of `2 ^ unit`. -/
structure Spacing where
  low : Nat
  value : Nat
  high : Nat
  unit : Int
  closed : Bool

namespace Spacing

/-- The interval of a mantissa and an exponent. It reaches half way to the neighbours; below a power
    of two the neighbour is twice as near. -/
def ofFinite (mantissa : Nat) (exponent : Int) : Spacing where
  low := 4 * mantissa - (if mantissa = pow2 52 ∧ -1074 < exponent then 1 else 2)
  value := 4 * mantissa
  high := 4 * mantissa + 2
  unit := exponent - 2
  closed := mantissa % 2 = 0

/-- Whether `d · 10 ^ g` lies in the interval. -/
def contains (s : Spacing) (d : Nat) (g : Int) : Bool :=
  let below := compareScaled d g s.low s.unit
  let above := compareScaled d g s.high s.unit
  (below == .gt || s.closed && below == .eq) && (above == .lt || s.closed && above == .eq)

/-- The number of digits before the point, or less the number of zeros after it. -/
def magnitude (s : Spacing) : Int :=
  let num := s.value * pow2 s.unit
  let den := pow2 (-s.unit)
  if den ≤ num then (Nat.toDigits 10 (num / den)).length
  else 1 - (Nat.toDigits 10 ((den - 1) / num)).length

/-- The largest `d` for which `d · 10 ^ g` does not exceed the number. -/
def floorOn (s : Spacing) (g : Int) : Nat :=
  (s.value * pow2 s.unit * pow10 (-g)) / (pow10 g * pow2 (-s.unit))

/-- The better of the number's two neighbours on the grid `10 ^ g`, if one is in the interval. -/
def onGrid (s : Spacing) (g : Int) : Option (Nat × Int) :=
  let d := s.floorOn g
  match s.contains d g, s.contains (d + 1) g with
  | false, false => none
  | true, false => some (d, g)
  | false, true => some (d + 1, g)
  | true, true =>
    if compareScaled (2 * d + 1) g (2 * s.value) s.unit = .gt then some (d, g) else some (d + 1, g)

/-- The digits of the shortest decimal and its grid. Seventeen digits are always enough. -/
def shortest (s : Spacing) : Nat × Int :=
  let k := s.magnitude
  let found := (List.range 17).findSome? fun (n : Nat) => s.onGrid (k - 1 - n)
  found.getD (s.floorOn (k - 17), k - 17)

end Spacing

/-- The text of `d · 10 ^ g`: no exponent, and no zero at the end of a fraction. -/
def positional (d : Nat) (g : Int) : String :=
  let digits := Nat.toDigits 10 d
  if 0 ≤ g then String.ofList (digits ++ List.replicate g.toNat '0')
  else
    let places := (-g).toNat
    let padded := List.replicate (places + 1 - digits.length) '0' ++ digits
    let whole := padded.take (padded.length - places)
    let fraction := ((padded.drop (padded.length - places)).reverse.dropWhile (· == '0')).reverse
    if fraction.isEmpty then String.ofList whole else String.ofList (whole ++ '.' :: fraction)

namespace Binary64

/-- The sign before a number. -/
def sign (negative : Bool) : String :=
  if negative then "-" else ""

/-- The text of a number: its shortest decimal. -/
def text : Binary64 → String
  | nan => "NaN"
  | infinite negative => sign negative ++ "inf"
  | finite negative 0 _ => sign negative ++ "0"
  | finite negative mantissa exponent =>
    let (d, g) := (Spacing.ofFinite mantissa exponent).shortest
    sign negative ++ positional d g

/-- Whether the text of a number is that of a whole number. -/
def isWhole : Binary64 → Bool
  | finite _ m e => 0 ≤ e || m % pow2 (-e) == 0
  | _ => false

end Binary64

end StateDiagram
