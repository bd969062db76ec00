/-!
# Sign, extrema and length of doubles

Small functions on doubles whose edge cases are fixed by the IEEE 754 standard:

* `copySign x y`: the magnitude of `x` with the sign bit of `y` (also of `-0` and `NaN`);
* `ieeeMax`, `ieeeMin`: an infinity of the right sign wins over everything, then `NaN` wins,
  and `+0` is larger than `-0`;
* `hypot`: `√(p² + q²)` as `max · √(1 + (min / max)²)`, infinite when either side is.
-/

namespace FiniteElements.Numeric

/-- The sign bit of a double. -/
def signBit (x : Float) : Bool := x.toBits.toNat ≥ Nat.pow 2 63

/-- The magnitude of `x` with the sign bit of `y`. -/
def copySign (x y : Float) : Float :=
  let magnitude := x.toBits.toNat % Nat.pow 2 63
  Float.ofBits (magnitude + (if signBit y then Nat.pow 2 63 else 0)).toUInt64

/-- Is `x` not a number? -/
def isNaN (x : Float) : Bool := x != x

/-- Is `x` an infinity of either sign? -/
def isInfinite (x : Float) : Bool := x.abs == (1 : Float) / 0

/-- The larger of two doubles: `+∞` if either is, else `NaN` if either is, `+0` over `-0`. -/
def ieeeMax (x y : Float) : Float :=
  if x == (1 : Float) / 0 || y == (1 : Float) / 0 then (1 : Float) / 0
  else if isNaN x || isNaN y then (0 : Float) / 0
  else if x == 0 && y == 0 then (if signBit x then y else x)
  else if x > y then x else y

/-- The smaller of two doubles: `-∞` if either is, else `NaN` if either is, `-0` under `+0`. -/
def ieeeMin (x y : Float) : Float :=
  if x == -((1 : Float) / 0) || y == -((1 : Float) / 0) then -((1 : Float) / 0)
  else if isNaN x || isNaN y then (0 : Float) / 0
  else if x == 0 && y == 0 then (if signBit x then x else y)
  else if x < y then x else y

/-- `√(p² + q²)` without overflow: the larger magnitude times `√(1 + r²)` with `r` the ratio of
the smaller to the larger; infinite if either is infinite, `NaN` if either is `NaN`. -/
def hypot (p q : Float) : Float :=
  let p := p.abs
  let q := q.abs
  if isInfinite p || isInfinite q then (1 : Float) / 0
  else if isNaN p || isNaN q then (0 : Float) / 0
  else
    let (big, small) := if p < q then (q, p) else (p, q)
    if big == 0 then 0
    else
      let r := small / big
      big * (1 + r * r).sqrt

end FiniteElements.Numeric
