/-!
# Packings of composite elements

A composite element numbers the dofs of its bases either interleaved (object by object: on each
vertex, line, quadrilateral and hexahedron, the dofs of every base instance in turn) or blocked
(base instance by base instance). Any other packing code is refused when a composite is built.

## Main definitions

* `FiniteElements.Element.Packing`, `Packing.ofCode`, `Packing.code`, `Packing.text`
-/

namespace FiniteElements.Element

/-- How a composite numbers the dofs of its bases; `unknown` keeps a code that names neither. -/
inductive Packing where
  | interleaved
  | blocked
  | unknown (code : Int)
deriving Repr, BEq, Inhabited

namespace Packing

/-- The packing of a code: `0` interleaved, `1` blocked. -/
def ofCode (code : Int) : Packing :=
  if code == 0 then .interleaved else if code == 1 then .blocked else .unknown code

/-- The code of a packing. -/
def code : Packing → Int
  | .interleaved => 0
  | .blocked => 1
  | .unknown c => c

/-- The name of a packing: `interleaved`, `blocked`, or `Packing(code)`. -/
def text : Packing → String
  | .interleaved => "interleaved"
  | .blocked => "blocked"
  | .unknown c => s!"Packing({c})"

end Packing

end FiniteElements.Element
