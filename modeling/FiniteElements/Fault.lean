/-!
# Faults of plain data access

Reading past the end of a list, dividing by zero, asking for a list of negative length or for
room out of range, and using a matrix that holds no storage are faults of the access itself, not
of the finite element vocabulary. They carry their own wording, shared by every part of the
library.

## Main definitions

* `FiniteElements.Fault`: the five faults and `Fault.message`.
* `FiniteElements.checkedIndex`: an index into a list of known length, or the fault.
-/

namespace FiniteElements

/-- A fault of plain data access. -/
inductive Fault where
  /-- Position `index` of a list of `length` entries does not exist. -/
  | indexOutOfRange (index : Int) (length : Nat)
  /-- An integer division by zero. -/
  | divisionByZero
  /-- A list of negative length, or of more entries than can be allocated, was asked for. -/
  | negativeLength
  /-- A list was asked for with room for a negative number of entries, or for more than can be
  allocated. -/
  | capacityOutOfRange
  /-- A matrix without storage was read or written. -/
  | noStorage
deriving Repr, BEq, Inhabited

/-- The text of a fault. -/
def Fault.message : Fault → String
  | .indexOutOfRange i n =>
    if i < 0 then s!"runtime error: index out of range [{i}]"
    else s!"runtime error: index out of range [{i}] with length {n}"
  | .divisionByZero => "runtime error: integer divide by zero"
  | .negativeLength => "runtime error: makeslice: len out of range"
  | .capacityOutOfRange => "runtime error: makeslice: cap out of range"
  | .noStorage => "runtime error: invalid memory address or nil pointer dereference"

/-- The entry at position `i` of `xs`, or the fault of reading it. -/
def checkedIndex {α : Type} (xs : List α) (i : Int) : Except Fault α :=
  if h : 0 ≤ i ∧ i.toNat < xs.length then .ok (xs.get ⟨i.toNat, h.2⟩)
  else .error (.indexOutOfRange i xs.length)

/-- Integer division truncated toward zero, refusing a zero divisor. -/
def truncDiv (a b : Int) : Except Fault Int :=
  if b == 0 then .error .divisionByZero else .ok (a.tdiv b)

/-- The remainder of `truncDiv`, with the sign of the dividend. -/
def truncMod (a b : Int) : Except Fault Int :=
  if b == 0 then .error .divisionByZero else .ok (a.tmod b)

end FiniteElements
