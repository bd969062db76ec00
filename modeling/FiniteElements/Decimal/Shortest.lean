/-!
# Exact decimal digits of binary64 values

A finite `Float` is `(-1)^s · m · 2^q` for naturals `m` and integers `q`. This file reads that
pair off the bits and computes decimal digit strings from it in exact `Nat` arithmetic:

* `Binary.shortest`: the fewest significant digits that read back as the same value (the reals
  that round to `m · 2^q` form an interval, ends included when `m` is even); of two candidates with
  that many digits the nearer one, an exact tie going to the even one;
* `Binary.roundSignificant`: the value rounded to a given number of significant digits;
* `Binary.roundPlaces`: the value rounded to a given number of places after the point.

Rounding is to nearest with ties to even throughout, on the exact binary value.

## Main definitions

* `FiniteElements.Decimal.Binary`, `FiniteElements.Decimal.Kind`, `FiniteElements.Decimal.classify`
* `FiniteElements.Decimal.Digits`: a natural digit string with a power of ten.
-/

namespace FiniteElements.Decimal

/-- A finite nonzero-or-zero binary64 magnitude `significand · 2^exponent`. `narrowBelow` says
that the next smaller double is half as far away as the next larger one, which happens at powers
of two above the smallest normal exponent. -/
structure Binary where
  significand : Nat
  exponent : Int
  narrowBelow : Bool
deriving Repr, BEq

/-- What a `Float` is: a signed finite magnitude, a signed infinity, or not a number. -/
inductive Kind where
  | finite (negative : Bool) (magnitude : Binary)
  | infinite (negative : Bool)
  | notANumber
deriving Repr, BEq

/-- Splits the bits of a double into sign, biased exponent and fraction. -/
def classify (x : Float) : Kind :=
  let bits : Nat := x.toBits.toNat
  let negative : Bool := bits / Nat.pow 2 63 % 2 == 1
  let field : Nat := bits / Nat.pow 2 52 % Nat.pow 2 11
  let fraction : Nat := bits % Nat.pow 2 52
  if field == 2047 then
    if fraction == 0 then .infinite negative else .notANumber
  else if field == 0 then
    .finite negative ⟨fraction, -1074, false⟩
  else
    .finite negative ⟨fraction + Nat.pow 2 52, (field : Int) - 1075, fraction == 0 && field > 1⟩

/-- A decimal `digits · 10^exponent`. -/
structure Digits where
  digits : Nat
  exponent : Int
deriving Repr, BEq, Inhabited

/-- The number of decimal digits of `n`, with `decimalLength 0 = 1`. -/
def decimalLength (n : Nat) : Nat :=
  if n < 10 then 1 else decimalLength (n / 10) + 1
termination_by n
decreasing_by omega

/-- Removes trailing zero digits of `n · 10^e`, raising the exponent. -/
def trimZeros (n : Nat) (e : Int) : Digits :=
  if h : n ≠ 0 ∧ n % 10 = 0 then trimZeros (n / 10) (e + 1) else ⟨n, e⟩
termination_by n
decreasing_by omega

/-- Removes trailing zero digits, raising the exponent; zero stays zero with exponent 0. -/
def Digits.trim (d : Digits) : Digits :=
  if d.digits == 0 then ⟨0, 0⟩ else trimZeros d.digits d.exponent

/-- The fraction `x · 2^s / 10^g` as a numerator and a denominator. -/
def scaled (x : Nat) (s g : Int) : Nat × Nat :=
  (x * Nat.pow 2 s.toNat * Nat.pow 10 (-g).toNat, Nat.pow 2 (-s).toNat * Nat.pow 10 g.toNat)

/-- `n / d` rounded to the nearest natural, an exact half going to the even neighbour. -/
def roundDivEven (n d : Nat) : Nat :=
  let q := n / d
  let r := n % d
  if 2 * r > d then q + 1
  else if 2 * r < d then q
  else if q % 2 == 1 then q + 1 else q

/-- The decimal exponent `E` with `10^E ≤ x · 2^s < 10^(E+1)`, for `x > 0`. -/
def Binary.decimalExponentOf (x : Nat) (s : Int) : Int :=
  let (num, den) := scaled x s 0
  let guess : Int := (decimalLength num : Int) - (decimalLength den : Int)
  let (n, d) := scaled x s guess
  if n ≥ d then guess else guess - 1

/-- The decimal exponent of a positive magnitude. -/
def Binary.decimalExponent (b : Binary) : Int :=
  Binary.decimalExponentOf b.significand b.exponent

/-- The candidate digit strings on the grid of `10^g` that read back as `b`: the two grid points
around the value, kept when they lie in its rounding interval. Measured in units of
`2^(exponent - 2)`, the value is `4m`, the interval runs from `4m - 2` (or `4m - 1` when narrow
below) to `4m + 2`, and the ends belong to it when `m` is even. -/
def Binary.gridHit (b : Binary) (g : Int) : Option Nat :=
  let s := b.exponent - 2
  let v := 4 * b.significand
  let lo := if b.narrowBelow then v - 1 else v - 2
  let hi := v + 2
  let closed := b.significand % 2 == 0
  let (num, den) := scaled v s g
  let (loN, _) := scaled lo s g
  let (hiN, _) := scaled hi s g
  let inside (c : Nat) : Bool :=
    if closed then loN ≤ c * den && c * den ≤ hiN else loN < c * den && c * den < hiN
  let below := num / den
  if num % den == 0 then
    if inside below then some below else none
  else
    let above := below + 1
    match inside below, inside above with
    | true, true =>
      let dBelow := num - below * den
      let dAbove := above * den - num
      if dBelow < dAbove then some below
      else if dAbove < dBelow then some above
      else if below % 2 == 0 then some below else some above
    | true, false => some below
    | false, true => some above
    | false, false => none

/-- Searches digit counts `n, n+1, …` (at most `fuel` of them) for the first grid with a hit. -/
def Binary.searchFrom (b : Binary) (e : Int) : Nat → Nat → Digits
  | 0, _ => ⟨b.significand, b.exponent⟩
  | fuel + 1, n =>
    let g := e - (n : Int) + 1
    match b.gridHit g with
    | some c => Digits.trim ⟨c, g⟩
    | none => Binary.searchFrom b e fuel (n + 1)

/-- The shortest decimal that reads back as `b`, the nearest of those when two qualify. Zero gives
`0`. Seventeen significant digits always suffice for a double. -/
def Binary.shortest (b : Binary) : Digits :=
  if b.significand == 0 then ⟨0, 0⟩
  else Binary.searchFrom b b.decimalExponent 17 1

/-- The value rounded to `n ≥ 1` significant digits, trailing zeros removed. -/
def Binary.roundSignificant (b : Binary) (n : Nat) : Digits :=
  if b.significand == 0 then ⟨0, 0⟩
  else
    let g := b.decimalExponent - (n : Int) + 1
    let (num, den) := scaled b.significand b.exponent g
    Digits.trim ⟨roundDivEven num den, g⟩

/-- The value rounded to `p` places after the decimal point, as the integer `round(x · 10^p)`. -/
def Binary.roundPlaces (b : Binary) (p : Nat) : Nat :=
  let (num, den) := scaled b.significand b.exponent (-(p : Int))
  roundDivEven num den

end FiniteElements.Decimal
