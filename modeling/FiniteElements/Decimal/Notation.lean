import FiniteElements.Decimal.Shortest

/-!
# Spelling decimal digits

A `Notation` fixes how digits are written: where positional notation gives way to exponent form,
how many digits the exponent has at least, and the words for infinities and NaN. `Notation.float`
spells a double with its shortest digits and `Notation.floatSignificant` with a fixed number of
significant digits.

The general form is the usual scientific one: `d.ddd` then `e`, the exponent's sign and at least
`exponentDigits` digits; the positional form writes all digits with the point where it falls and
zeros to fill. Negative numbers, negative zero included, start with `-`.
-/

namespace FiniteElements.Decimal

/-- How numbers are spelled. The exponent form is used when the decimal exponent `E` (with
`10^E ≤ |x| < 10^(E+1)`) is below `scientificBelow` or at least `scientificFrom`. -/
structure Notation where
  scientificBelow : Int
  scientificFrom : Int
  exponentDigits : Nat
  positiveInfinity : String
  negativeInfinity : String
  notANumber : String

/-- `n` zero characters. -/
def zeros (n : Nat) : String := String.ofList (List.replicate n '0')

/-- The digits of a natural number. -/
def natText (n : Nat) : String := String.ofList (Nat.toDigits 10 n)

/-- Writes a decimal magnitude in the notation, without a sign. Zero is `0`. -/
def Notation.magnitude (nt : Notation) (d : Digits) : String :=
  if d.digits == 0 then "0"
  else
    let s := natText d.digits
    let nd : Int := s.length
    let point : Int := nd + d.exponent
    let e := point - 1
    if e < nt.scientificBelow || e ≥ nt.scientificFrom then
      let cs := s.toList
      let head := String.ofList (cs.take 1)
      let rest := String.ofList (cs.drop 1)
      let mantissa := if rest.isEmpty then head else head ++ "." ++ rest
      let expText := natText e.natAbs
      let padded := zeros (nt.exponentDigits - expText.length) ++ expText
      mantissa ++ "e" ++ (if e < 0 then "-" else "+") ++ padded
    else if point ≤ 0 then
      "0." ++ zeros point.natAbs ++ s
    else if point ≥ nd then
      s ++ zeros (point - nd).toNat
    else
      let cs := s.toList
      String.ofList (cs.take point.toNat) ++ "." ++ String.ofList (cs.drop point.toNat)

/-- Spells a classified double from the digits `digitsOf` chooses for its magnitude. -/
def Notation.spell (nt : Notation) (digitsOf : Binary → Digits) : Kind → String
  | .notANumber => nt.notANumber
  | .infinite negative => if negative then nt.negativeInfinity else nt.positiveInfinity
  | .finite negative b => (if negative then "-" else "") ++ nt.magnitude (digitsOf b)

/-- A double with the fewest digits that read back as it. -/
def Notation.float (nt : Notation) (x : Float) : String :=
  nt.spell Binary.shortest (classify x)

/-- A double rounded to `n` significant digits, trailing zeros dropped; the exponent form starts
at `E ≥ n`. -/
def Notation.floatSignificant (nt : Notation) (n : Nat) (x : Float) : String :=
  { nt with scientificFrom := n }.spell (fun b => b.roundSignificant n) (classify x)

/-- The notation of numbers in messages and matrix text: shortest digits, exponent form below
`1e-4` and from `1e+06`, two exponent digits at least, `+Inf`, `-Inf` and `NaN`. -/
def Notation.general : Notation :=
  { scientificBelow := -4, scientificFrom := 6, exponentDigits := 2,
    positiveInfinity := "+Inf", negativeInfinity := "-Inf", notANumber := "NaN" }

/-- Shortest general text of a double (`Notation.general`). -/
def floatText (x : Float) : String := Notation.general.float x

/-- A double with `p` digits after the point, rounded to nearest with ties to even. -/
def fixedText (p : Nat) (x : Float) : String :=
  match classify x with
  | .notANumber => "NaN"
  | .infinite negative => if negative then "-Inf" else "+Inf"
  | .finite negative b =>
    let q := natText (b.roundPlaces p)
    let padded := zeros (p + 1 - q.length) ++ q
    let cut := padded.length - p
    let cs := padded.toList
    let body := if p == 0 then padded
      else String.ofList (cs.take cut) ++ "." ++ String.ofList (cs.drop cut)
    (if negative then "-" else "") ++ body

end FiniteElements.Decimal
