import FiniteElements.Fault

/-!
# Partitions of an index range

A partition map splits the indices `[0, M)` into `P ≥ 1` contiguous buckets whose sizes differ by
at most one: every bucket gets `M / P` indices and the first `M % P` buckets one more. Division
truncates toward zero and the remainder takes the sign of `M`, so a negative `M` gives buckets
that run backwards. A degree below one is taken as one.

## Main definitions

* `FiniteElements.PartitionMap`, `PartitionMap.new`, `PartitionMap.bucket`,
  `PartitionMap.buckets`, `PartitionMap.indices`, `PartitionMap.bucketDimension`
-/

namespace FiniteElements

/-- `maxIndex` indices split into `degree` buckets. -/
structure PartitionMap where
  maxIndex : Int
  degree : Nat
deriving Repr, BEq, Inhabited

namespace PartitionMap

/-- The map of `maxIndex` indices into `parallel` buckets, at least one. -/
def new (parallel maxIndex : Int) : PartitionMap :=
  ⟨maxIndex, if parallel < 1 then 1 else parallel.toNat⟩

/-- The first and one-past-last index of bucket `n`. -/
def bucket (pm : PartitionMap) (n : Nat) : Int × Int :=
  let p : Int := pm.degree
  let size := pm.maxIndex.tdiv p
  let remainder := pm.maxIndex.tmod p
  let (startAdd, endAdd) : Int × Int :=
    if remainder == 0 then (0, 0)
    else if n + 1 > remainder then (remainder, 0)
    else (n, 1)
  let start := n * size + startAdd
  (start, start + size + endAdd)

/-- Every bucket in order. -/
def buckets (pm : PartitionMap) : List (Int × Int) := (List.range pm.degree).map pm.bucket

/-- The indices of bucket `n`, from its first up to one before its end, as a worker visits them;
none when the end is not past the first. -/
def indices (pm : PartitionMap) (n : Nat) : List Int :=
  let (lo, hi) := pm.bucket n
  (List.range (hi - lo).toNat).map fun (i : Nat) => lo + i

/-- The number of indices of bucket `b`; bucket `-1` stands for the whole range. -/
def bucketDimension (pm : PartitionMap) (b : Int) : Except Fault Int :=
  if b == -1 then .ok pm.maxIndex
  else if 0 ≤ b ∧ b < pm.degree then
    let (lo, hi) := pm.bucket b.toNat
    .ok (hi - lo)
  else .error (.indexOutOfRange b pm.degree)

end PartitionMap

end FiniteElements
