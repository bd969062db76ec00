/-!
# White space and case folding of labels

Labels are compared after trimming white space and folding case. White space is the Unicode
white space: tab, line feed, vertical tab, form feed, carriage return, space, next line (U+0085),
no-break space (U+00A0), and the separators U+1680, U+2000 to U+200A, U+2028, U+2029, U+202F,
U+205F and U+3000.

Labels are compared against ASCII words only, so folding needs to be exact only for the
characters whose lower case is an ASCII letter: the ASCII capitals, the capital I with dot above
(U+0130, folded to `i`) and the Kelvin sign (U+212A, folded to `k`). Every other character is
left as it is, which cannot make a label equal to an ASCII word it would not equal otherwise.

## Main definitions

* `FiniteElements.Text.isWhite`, `FiniteElements.Text.trimWhite`, `FiniteElements.Text.foldLabel`
-/

namespace FiniteElements.Text

/-- Whether a character is Unicode white space. -/
def isWhite (c : Char) : Bool :=
  let n := c.toNat
  (9 ≤ n && n ≤ 13) || n == 32 || n == 0x85 || n == 0xA0 || n == 0x1680 ||
    (0x2000 ≤ n && n ≤ 0x200A) || n == 0x2028 || n == 0x2029 || n == 0x202F || n == 0x205F ||
    n == 0x3000

/-- The text without leading and trailing white space. -/
def trimWhite (s : String) : String :=
  String.ofList ((s.toList.dropWhile isWhite).reverse.dropWhile isWhite).reverse

/-- Folds a character toward lower case as far as comparisons with ASCII words can tell. -/
def foldChar (c : Char) : Char :=
  if 'A' ≤ c && c ≤ 'Z' then Char.ofNat (c.toNat + 32)
  else if c.toNat == 0x130 then 'i'
  else if c.toNat == 0x212A then 'k'
  else c

/-- A label trimmed and folded for comparison with ASCII words. -/
def foldLabel (s : String) : String := String.ofList ((trimWhite s).toList.map foldChar)

end FiniteElements.Text
