/-!
# Machine integers

Counts and offsets of elements are signed 64-bit integers: their sums and products wrap around
modulo `2^64` into `[-2^63, 2^63)`. `wrapWord` maps the exact value of such an expression to its
machine value. Wrapping agrees with addition and multiplication modulo `2^64`, so wrapping the
exact value once gives what wrapping after every step gives.

A list of words is allocated in one piece of at most `2^48` bytes, `2^45` words: a length that is
negative or past `maxWords` cannot be allocated (`roomFits`).

## Main definitions

* `FiniteElements.Numeric.wrapWord`
* `FiniteElements.Numeric.maxWords`, `FiniteElements.Numeric.roomFits`
-/

namespace FiniteElements.Numeric

/-- The signed 64-bit integer congruent to `x` modulo `2^64`. -/
def wrapWord (x : Int) : Int := (x + Int.pow 2 63) % Int.pow 2 64 - Int.pow 2 63

/-- The most machine words one list can be allocated with, `2^45`: a word takes 8 bytes, and no
allocation may exceed the `2^48` bytes the heap can address. -/
def maxWords : Int := 35184372088832

/-- Whether room for `n` machine words can be allocated. -/
def roomFits (n : Int) : Bool := 0 ≤ n && n ≤ maxWords

end FiniteElements.Numeric
