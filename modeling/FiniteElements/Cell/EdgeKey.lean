import FiniteElements.Cell.Hypercube

/-!
# Edge keys

An edge key names a line by its two vertices whatever their order: the smaller vertex fills the
low 32 bits of a 64-bit word and the larger one the high 32 bits. Two vertex pairs have the same
key exactly when they are the same unordered pair.

## Main definitions

* `FiniteElements.Cell.EdgeKey`, `EdgeKey.ofVertices`, `EdgeKey.vertices`.
* `Hypercube.lineKeys`, `Hypercube.faceLineKeys`: the keys of the cell's lines and of a face's.
-/

namespace FiniteElements.Cell

/-- A line named by its unordered vertex pair, packed in one word. -/
structure EdgeKey where
  word : UInt64
deriving Repr, BEq, DecidableEq, Inhabited

namespace EdgeKey

/-- The key of the pair `{v0, v1}`; both vertices must lie in `[0, 2^32)`. -/
def ofVertices (v0 v1 : Int) : Except CellError EdgeKey :=
  let lo := min v0 v1
  let hi := max v0 v1
  if lo < 0 || hi > 4294967295 then .error (.vertexOutOfRange v0 v1)
  else .ok ⟨(hi.toNat * Nat.pow 2 32 + lo.toNat).toUInt64⟩

/-- The two vertices, the smaller first. -/
def vertices (k : EdgeKey) : Nat × Nat :=
  (k.word.toNat % Nat.pow 2 32, k.word.toNat / Nat.pow 2 32)

end EdgeKey

namespace Hypercube

/-- The key of every line of the cell, by line number. -/
def lineKeys (c : Hypercube) : Except CellError (List EdgeKey) :=
  (List.range c.linesPerCell).mapM fun (l : Nat) => do
    let (a, b) ← c.lineVertices l
    EdgeKey.ofVertices a b

/-- The keys of the lines of a face in face-local order, from the face's vertices numbered like
a square; faces of an interval have none. -/
def faceLineKeys (c : Hypercube) (face : Int) : Except CellError (List EdgeKey) :=
  match c with
  | .interval => .ok []
  | .square => do
    let a ← c.faceVertex face 0
    let b ← c.faceVertex face 1
    return [← EdgeKey.ofVertices a b]
  | .cube => squareLines.mapM fun p => do
    let a ← c.faceVertex face p.1
    let b ← c.faceVertex face p.2
    EdgeKey.ofVertices a b

end Hypercube

end FiniteElements.Cell
