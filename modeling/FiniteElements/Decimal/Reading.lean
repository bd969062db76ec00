import FiniteElements.Decimal.Shortest

/-!
# Reading decimal numbers, and single precision

`readFloat` reads decimal text — an optional sign, digits with at most one point, an optional
exponent — as the double nearest to its exact value, ties to even. A value that rounds beyond the
largest double is out of range (`none`); one too small becomes zero. An underscore may stand
between two digits.

`classifySingle` rounds a double to the nearest single-precision value, so that its shortest
digits can be written with the single-precision rounding interval.

## Main definitions

* `FiniteElements.Decimal.nearestDouble`, `FiniteElements.Decimal.readFloat`,
  `FiniteElements.Decimal.readFloatText`
* `FiniteElements.Decimal.classifySingle`
-/

namespace FiniteElements.Decimal

/-- The double with a sign, a significand `m < 2^53` and an exponent `q ≥ -1074`: a significand
below `2^52` is subnormal. -/
def assemble (negative : Bool) (m : Nat) (q : Int) : Float :=
  let sign : Nat := if negative then Nat.pow 2 63 else 0
  let bits : Nat := if m < Nat.pow 2 52 then m else (q + 1075).toNat * Nat.pow 2 52 + (m - Nat.pow 2 52)
  Float.ofBits (sign + bits).toUInt64

/-- The significand and exponent of the double nearest to `num / den > 0`, ties to even; `none`
when that is beyond the largest double. -/
def nearestDouble (num den : Nat) : Option (Nat × Int) :=
  let l : Int := (Nat.log2 num : Int) - (Nat.log2 den : Int)
  let atLeast : Bool :=
    if l ≥ 0 then den * Nat.pow 2 l.toNat ≤ num else den ≤ num * Nat.pow 2 l.natAbs
  let e := max (if atLeast then l - 52 else l - 53) (-1074)
  let (n, d) := if e ≥ 0 then (num, den * Nat.pow 2 e.toNat) else (num * Nat.pow 2 e.natAbs, den)
  let m := roundDivEven n d
  let (m, e) := if m == Nat.pow 2 53 then (Nat.pow 2 52, e + 1) else (m, e)
  if e > 971 then none else some (m, e)

/-- The double nearest to `± digits · 10^exponent`; `none` when out of range. -/
def decimalToFloat (negative : Bool) (digits : Nat) (exponent : Int) : Option Float :=
  if digits == 0 then some (assemble negative 0 0)
  else
    let size : Int := decimalLength digits
    if exponent + size > 310 then none
    else if exponent + size < -330 then some (assemble negative 0 0)
    else
      let (num, den) :=
        if exponent ≥ 0 then (digits * Nat.pow 10 exponent.toNat, 1) else (digits, Nat.pow 10 exponent.natAbs)
      (nearestDouble num den).map fun (m, q) => assemble negative m q

/-- Whether the underscores of a number stand only between digits. -/
def underscoresBetweenDigits (cs : List Char) : Bool :=
  let rec go : List Char → Char → Bool
    | [], seen => seen != '_'
    | c :: rest, seen =>
      if c.isDigit then go rest '0'
      else if c == '_' then seen == '0' && go rest '_'
      else seen != '_' && go rest '!'
  go (match cs with | c :: rest => if c == '+' || c == '-' then rest else cs | [] => []) '^'

/-- The digits of a run, underscores dropped. -/
def digitsOf (cs : List Char) : Nat :=
  (cs.filter Char.isDigit).foldl (fun n c => 10 * n + (c.toNat - '0'.toNat)) 0

/-- Reads `[+-] digits [. digits] [(e|E) [+-] digits]` with at least one digit before the
exponent, as the nearest double; `none` when the text is not of that form or the value is out of
range. -/
def readFloat (s : String) : Option Float :=
  let cs := s.toList
  if !underscoresBetweenDigits cs then none
  else
    let (negative, cs) := match cs with
      | '-' :: rest => (true, rest)
      | '+' :: rest => (false, rest)
      | _ => (false, cs)
    let isMant (c : Char) : Bool := c.isDigit || c == '_'
    let whole := cs.takeWhile isMant
    let cs := cs.drop whole.length
    let (frac, cs) := match cs with
      | '.' :: rest => (rest.takeWhile isMant, rest.drop (rest.takeWhile isMant).length)
      | _ => ([], cs)
    if !(whole ++ frac).any Char.isDigit then none
    else
      let expPart : Option Int := match cs with
        | [] => some 0
        | e :: rest =>
          if e == 'e' || e == 'E' then
            let (eneg, ds) := match rest with
              | '-' :: r => (true, r)
              | '+' :: r => (false, r)
              | r => (false, r)
            if ds.isEmpty || !ds.head!.isDigit || !ds.all isMant then none
            else
              let v : Int := min (digitsOf ds) 100000
              some (if eneg then -v else v)
          else none
      match expPart with
      | none => none
      | some x =>
        let fracDigits := (frac.filter Char.isDigit).length
        decimalToFloat negative (digitsOf (whole ++ frac)) (x - fracDigits)

/-- Reads a float given as text in an argument: decimal text as `readFloat` reads it but with no
underscore, `inf` or `infinity` with an optional sign, or `nan`, letters in any case. -/
def readFloatText (s : String) : Option Float :=
  let low := s.toLower
  let (negative, body) := match low.toList with
    | '-' :: r => (true, r)
    | '+' :: r => (false, r)
    | r => (false, r)
  if body == "inf".toList || body == "infinity".toList then
    some (if negative then -1.0 / 0.0 else 1.0 / 0.0)
  else if low == "nan" then some (0.0 / 0.0)
  else if s.any (· == '_') then none
  else readFloat s

/-- The single-precision value nearest to a double (ties to even), as a sign with a magnitude
`m · 2^q`, `m < 2^24`; beyond the largest single it is infinite. -/
def classifySingle (x : Float) : Kind :=
  match classify x with
  | .notANumber => .notANumber
  | .infinite negative => .infinite negative
  | .finite negative b =>
    if b.significand == 0 then .finite negative ⟨0, -149, false⟩
    else
      let top : Int := Nat.log2 b.significand
      let shift : Int := max (top - 23) (-149 - b.exponent)
      let m : Nat :=
        if shift ≥ 0 then roundDivEven b.significand (Nat.pow 2 shift.toNat)
        else b.significand * Nat.pow 2 shift.natAbs
      let q := b.exponent + shift
      let (m, q) := if m == Nat.pow 2 24 then (Nat.pow 2 23, q + 1) else (m, q)
      if m == 0 then .finite negative ⟨0, -149, false⟩
      else if q > 104 then .infinite negative
      else .finite negative ⟨m, q, m == Nat.pow 2 23 && q + 150 > 1⟩

end FiniteElements.Decimal
