import FiniteElements.Text.Printable

/-!
# Quoted text

`quote s` writes `s` between double quotes so that it reads back unchanged: the quote and the
backslash are preceded by a backslash, the seven control characters with a letter escape use it
(`\a \b \f \n \r \t \v`), other characters below U+0080 that are not printable become `\xHH`,
other characters that are not printable become `\uHHHH` or `\UHHHHHHHH`, and every printable
character stands for itself. Hexadecimal digits are lower case.

## Main definitions

* `FiniteElements.Text.escapeChar`, `FiniteElements.Text.quote`
-/

namespace FiniteElements.Text

/-- The lower-case hexadecimal digits of `n`, padded with zeros to `width`. -/
def hexDigits (width n : Nat) : List Char :=
  let ds := Nat.toDigits 16 n
  List.replicate (width - ds.length) '0' ++ ds

/-- The characters that stand for `c` between quotes. -/
def escapeChar (c : Char) : List Char :=
  if c = '"' then ['\\', '"']
  else if c = '\\' then ['\\', '\\']
  else if isPrintable c then [c]
  else if c.toNat = 7 then ['\\', 'a']
  else if c.toNat = 8 then ['\\', 'b']
  else if c.toNat = 12 then ['\\', 'f']
  else if c = '\n' then ['\\', 'n']
  else if c = '\r' then ['\\', 'r']
  else if c = '\t' then ['\\', 't']
  else if c.toNat = 11 then ['\\', 'v']
  else if c.toNat < 0x80 then ['\\', 'x'] ++ hexDigits 2 c.toNat
  else if c.toNat < 0x10000 then ['\\', 'u'] ++ hexDigits 4 c.toNat
  else ['\\', 'U'] ++ hexDigits 8 c.toNat

/-- `s` between double quotes, escaped character by character. -/
def quote (s : String) : String :=
  String.ofList ('"' :: s.toList.flatMap escapeChar ++ ['"'])

end FiniteElements.Text
