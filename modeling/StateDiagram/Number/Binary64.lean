/-!
# `Number.Binary64` — double precision numbers

The numbers of the IEEE 754 format binary64, as a sign, a whole mantissa and a power of two, and the
one of them that is nearest to a decimal. All of it is exact arithmetic on whole numbers.

## Contents

* `Binary64` — the numbers, both infinities, and the value that is no number;
* `divRound` — a quotient rounded to the nearest whole number, ties to even;
* `Binary64.pow2`, `Binary64.pow10` — the whole ones among the powers of two and ten;
* `Binary64.ofRatio`, `Binary64.ofDecimal` — the nearest number to a ratio, to a decimal.
-/

namespace StateDiagram

/-- A double precision number. A finite one is its mantissa times two to its exponent; the mantissa
    has 53 bits, or the exponent is -1074. -/
inductive Binary64
  | nan
  | infinite (negative : Bool)
  | finite (negative : Bool) (mantissa : Nat) (exponent : Int)
deriving DecidableEq, Repr

/-- The whole number nearest to `num / den`; of two equally near, the even one. -/
def divRound (num den : Nat) : Nat :=
  let q := num / den
  let r := num % den
  if 2 * r < den then q
  else if den < 2 * r then q + 1
  else if q % 2 = 0 then q else q + 1

namespace Binary64

/-- A power of two, if the exponent is not negative; else one. -/
def pow2 (e : Int) : Nat := Nat.pow 2 e.toNat

/-- A power of ten, if the exponent is not negative; else one. -/
def pow10 (e : Int) : Nat := Nat.pow 10 e.toNat

/-- The largest `e` for which `2 ^ e ≤ num / den`. -/
def floorLog2 (num den : Nat) : Int :=
  let e : Int := Nat.log2 num - Nat.log2 den
  if den * pow2 e ≤ num * pow2 (-e) then e else e - 1

/-- The number nearest to `num / den`, ties to an even mantissa. -/
def ofRatio (negative : Bool) (num den : Nat) : Binary64 :=
  if num = 0 then finite negative 0 (-1074)
  else
    let q := max (floorLog2 num den - 52) (-1074)
    let m := divRound (num * pow2 (-q)) (den * pow2 q)
    let (m, q) := if m = pow2 53 then (pow2 52, q + 1) else (m, q)
    if q ≤ 971 then finite negative m q else infinite negative

/-- The number nearest to `digits · 10 ^ exponent`. Decimals far out of range are not multiplied
    out. -/
def ofDecimal (negative : Bool) (digits : Nat) (exponent : Int) : Binary64 :=
  let top := (Nat.toDigits 10 digits).length + exponent
  if digits = 0 ∨ top < -330 then ofRatio negative 0 1
  else if 310 < top then infinite negative
  else ofRatio negative (digits * pow10 exponent) (pow10 (-exponent))

end Binary64

end StateDiagram
