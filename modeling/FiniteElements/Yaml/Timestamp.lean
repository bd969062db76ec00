/-!
# Timestamps

A plain scalar that starts with a four-digit year and a hyphen is a timestamp when it reads in
one of four forms, a date alone or a date with a time of day:

* `Y-M-DTh:m:s[.f]Z` and `Y-M-Dth:m:s[.f]Z`, where the zone `Z` is the letter `Z` or an offset
  `±hh:mm` of at most 24 hours and 60 minutes;
* `Y-M-D h:m:s[.f]`, the date and time apart by one or more spaces, with no zone;
* `Y-M-D`.

The year has four digits. The month, day, hour, minute and second have one or two digits each,
and a field takes two digits whenever two follow. The date must be in the calendar, the hour below
24 and the minute and second below 60. A fraction of a second is a point or a comma followed by
any number of digits. Nothing may follow the form.

## Main definitions

* `FiniteElements.Yaml.isTimestamp`
-/

namespace FiniteElements.Yaml

/-- A step of reading: the value read from the head of a text, and the text after it. -/
abbrev TextStep (α : Type) := List Char → Option (α × List Char)

/-- The value of a decimal digit. -/
def decimalDigit (c : Char) : Nat := c.toNat - '0'.toNat

/-- One or two digits, two whenever two follow. -/
def shortField : TextStep Nat
  | a :: b :: rest =>
    if !a.isDigit then none
    else if b.isDigit then some (10 * decimalDigit a + decimalDigit b, rest)
    else some (decimalDigit a, b :: rest)
  | [a] => if a.isDigit then some (decimalDigit a, []) else none
  | [] => none

/-- One given character. -/
def literal (c : Char) : TextStep Unit
  | d :: rest => if d == c then some ((), rest) else none
  | [] => none

/-- Whether a year of the calendar is a leap year. -/
def isLeapYear (year : Nat) : Bool := year % 4 == 0 && (year % 100 != 0 || year % 400 == 0)

/-- The number of days of a month (1 to 12) in a year. -/
def daysInMonth (year month : Nat) : Nat :=
  let february := if isLeapYear year then 29 else 28
  [31, february, 31, 30, 31, 30, 31, 31, 30, 31, 30, 31].getD (month - 1) 0

/-- A date `Y-M-D` of the calendar with a four-digit year. -/
def date : TextStep Unit
  | y1 :: y2 :: y3 :: y4 :: '-' :: rest =>
    if !([y1, y2, y3, y4].all Char.isDigit) then none
    else do
      let year := [y1, y2, y3, y4].foldl (fun n c => 10 * n + decimalDigit c) 0
      let (month, rest) ← shortField rest
      let ((), rest) ← literal '-' rest
      let (day, rest) ← shortField rest
      if 1 ≤ month && month ≤ 12 && 1 ≤ day && day ≤ daysInMonth year month then some ((), rest)
      else none
  | _ => none

/-- A field of one or two digits below `bound`. -/
def boundedField (bound : Nat) : TextStep Unit := fun cs => do
  let (n, rest) ← shortField cs
  if n < bound then some ((), rest) else none

/-- A time of day `h:m:s`, with a fraction of a second when a point or a comma and a digit come
next. -/
def timeOfDay : TextStep Unit := fun cs => do
  let ((), cs) ← boundedField 24 cs
  let ((), cs) ← literal ':' cs
  let ((), cs) ← boundedField 60 cs
  let ((), cs) ← literal ':' cs
  let ((), cs) ← boundedField 60 cs
  match cs with
  | p :: d :: rest =>
    if (p == '.' || p == ',') && d.isDigit then some ((), rest.dropWhile Char.isDigit)
    else some ((), cs)
  | _ => some ((), cs)

/-- A zone: the letter `Z`, or a sign, two digits of hours up to 24, a colon and two digits of
minutes up to 60. -/
def zone : TextStep Unit
  | 'Z' :: rest => some ((), rest)
  | s :: h1 :: h2 :: ':' :: m1 :: m2 :: rest =>
    let hours := 10 * decimalDigit h1 + decimalDigit h2
    let minutes := 10 * decimalDigit m1 + decimalDigit m2
    if (s == '+' || s == '-') && [h1, h2, m1, m2].all Char.isDigit && hours ≤ 24 &&
        minutes ≤ 60 then
      some ((), rest)
    else none
  | _ => none

/-- Whether a reading takes the whole text. -/
def readsWhole (r : TextStep Unit) (cs : List Char) : Bool :=
  match r cs with
  | some ((), []) => true
  | _ => false

/-- The date and the time of day apart by `separator`, then a zone. -/
def zonedForm (separator : Char) : TextStep Unit := fun cs => do
  let ((), cs) ← date cs
  let ((), cs) ← literal separator cs
  let ((), cs) ← timeOfDay cs
  zone cs

/-- The date and the time of day apart by one or more spaces, with no zone. -/
def spacedForm : TextStep Unit := fun cs => do
  let ((), cs) ← date cs
  match cs with
  | ' ' :: rest => timeOfDay (rest.dropWhile (· == ' '))
  | _ => none

/-- Whether a text is a timestamp in one of the four forms. -/
def isTimestamp (s : String) : Bool :=
  let cs := s.toList
  readsWhole (zonedForm 'T') cs || readsWhole (zonedForm 't') cs || readsWhole spacedForm cs ||
    readsWhole date cs

end FiniteElements.Yaml
