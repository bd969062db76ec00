import FiniteElements.Proofs.Layout.Counts

/-!
# Consistency along face lines, weight by weight

`consistentAlongLines` reads the refined rows of the four lines of a 3D face into one constraint
set, in line-local numbering, and fails at the first weight off a line or the first line whose
weights the set refuses. This file says exactly when it succeeds (`consistentAlongLines_eq_ok`):
when the matrix's weights agree along the face lines (`LinesAgree`).

* Refined dof `k` of face line `l` is constraint row `lineRow dv dl l k`, and coarse dof `p` of the
  line is constraint column `lineColumn dv dl l p` (`lineRows_eq`, `lineColumns_eq`).
* A row is read exactly when it has no nonzero weight off the line, and then as its weights at the
  line's columns (`localRow_eq_ok`).
* The first line stores, for each refined dof, its nonzero weights summed from `+0`; every later
  line must meet each stored weight exactly (IEEE `==`) and add no new one (`agrees_firstLine`).

## Main definitions

* `FiniteElements.Constraint.lineRow`, `FiniteElements.Constraint.lineColumn`
* `FiniteElements.Constraint.WeightsAgree`, `FiniteElements.Constraint.LinesAgree`

## Main results

* `FiniteElements.Constraint.consistentAlongLines_eq_ok`
-/

set_option autoImplicit false

namespace FiniteElements.Dense.Matrix

theorem entry_of_lt {m : Matrix} (hne : m.isEmpty = false) {i j : Nat} (hi : i < m.rows)
    (hj : j < m.cols) : m.entry i j = .ok (m.get i j) := by
  have hi' : ¬((i : Int) < 0 ∨ m.rows ≤ i) := by omega
  have hj' : ¬((j : Int) < 0 ∨ m.cols ≤ j) := by omega
  simp [entry, position, get, hne, hi', hj', bind, Except.bind, pure, Except.pure]

/-- A copy keeps the shape and the entries of a matrix with storage. -/
theorem copy_of_isEmpty_false {m : Matrix} (h : m.isEmpty = false) :
    m.copy = { m with readOnly := false, name := defaultName } := by
  simp [copy, h]

/-- A read-only copy has the shape and the entries of the matrix. -/
@[simp] theorem readOnlyCopy_cols (m : Matrix) : m.readOnlyCopy.cols = m.cols := by
  unfold readOnlyCopy copy setReadOnly
  split_ifs <;> rfl

@[simp] theorem readOnlyCopy_get (m : Matrix) : m.readOnlyCopy.get = m.get := by
  unfold readOnlyCopy copy setReadOnly get
  split_ifs <;> rfl

end FiniteElements.Dense.Matrix

namespace FiniteElements.Constraint

open FiniteElements.Element FiniteElements.Dense

section Sums

/-- A column not summed yet is summed last, from `+0`. -/
theorem accumulate_of_not_mem {sums : List (Nat × Float)} {c : Nat} (h : ∀ x ∈ sums, x.1 ≠ c)
    (w : Float) : accumulate sums c w = sums ++ [(c, 0 + w)] := by
  induction sums with
  | nil => rfl
  | cons x rest ih =>
    have hx : x.1 ≠ c := h x List.mem_cons_self
    simp only [accumulate, beq_iff_eq, hx, if_false, List.cons_append]
    rw [ih fun y hy => h y (List.mem_cons_of_mem _ hy)]

theorem sumAt_of_mem {sums : List (Nat × Float)} (hnodup : (sums.map (·.1)).Nodup) {c : Nat}
    {w : Float} (h : (c, w) ∈ sums) : sumAt sums c = w := by
  induction sums with
  | nil => simp at h
  | cons x rest ih =>
    rw [List.map_cons, List.nodup_cons] at hnodup
    rcases List.mem_cons.1 h with rfl | h
    · simp [sumAt]
    · have hx : x.1 ≠ c := fun hx => hnodup.1 (hx ▸ List.mem_map_of_mem (f := (·.1)) h)
      rw [sumAt, List.find?_cons_of_neg (by simpa using hx)]
      exact ih hnodup.2 h

theorem sumAt_of_not_mem {sums : List (Nat × Float)} {c : Nat} (h : ∀ x ∈ sums, x.1 ≠ c) :
    sumAt sums c = 0 := by
  have : sums.find? (·.1 == c) = none := List.find?_eq_none.2 fun x hx => by simpa using h x hx
  simp [sumAt, this]

/-- Summing columns that each appear once keeps every weight, from `+0`. -/
theorem foldl_accumulate_range (v : Nat → Float) (n : Nat) :
    ((List.range n).map fun (p : Nat) => ((p : Int), v p)).foldl
        (fun acc q => accumulate acc q.1.toNat q.2) [] =
      (List.range n).map fun p => (p, 0 + v p) := by
  induction n with
  | zero => rfl
  | succ n ih =>
    rw [List.range_succ, List.map_append, List.foldl_append, ih, List.map_append]
    simp only [List.map_cons, List.map_nil, List.foldl_cons, List.foldl_nil, Int.toNat_natCast]
    refine accumulate_of_not_mem (fun x hx => ?_) _
    obtain ⟨p, hp, rfl⟩ := List.mem_map.1 hx
    exact Nat.ne_of_lt (List.mem_range.1 hp)

/-- The sums of a row read at its positions `0 … n - 1` are its weights, from `+0`. -/
theorem sums_range (cs : ConstraintSet) (v : Nat → Float) {n : Nat} (hn : (n : Int) ≤ cs.cols) :
    cs.sums ((List.range n).map fun (p : Nat) => (p : Int)) ((List.range n).map v) =
      .ok ((List.range n).map fun p => (p, 0 + v p)) := by
  unfold ConstraintSet.sums
  simp only [List.length_map, List.length_range, bne_self_eq_false, Bool.false_eq_true, if_false]
  rw [List.zip_map', foldlM_eq_ok_foldl fun acc q hq => ?_, foldl_accumulate_range]
  obtain ⟨p, hp, rfl⟩ := List.mem_map.1 hq
  have hp := List.mem_range.1 hp
  exact if_pos ⟨by omega, by omega⟩

end Sums

section Sorted

variable {α : Type}

theorem perm_insertByKey (x : Nat × α) :
    ∀ ys : List (Nat × α), (insertByKey x ys).Perm (x :: ys)
  | [] => .refl _
  | y :: ys => by
    unfold insertByKey
    split
    · exact .refl _
    · exact ((perm_insertByKey x ys).cons y).trans (.swap x y ys)

theorem perm_sortByKey : ∀ xs : List (Nat × α), (sortByKey xs).Perm xs
  | [] => .refl _
  | x :: xs => (perm_insertByKey x (sortByKey xs)).trans ((perm_sortByKey xs).cons x)

/-- A key above all others goes last. -/
theorem insertByKey_of_lt {x : Nat × α} :
    ∀ {ys : List (Nat × α)}, (∀ y ∈ ys, y.1 < x.1) → insertByKey x ys = ys ++ [x]
  | [], _ => rfl
  | y :: ys, h => by
    have hy := h y List.mem_cons_self
    rw [insertByKey, if_neg (by omega),
      insertByKey_of_lt fun z hz => h z (List.mem_cons_of_mem _ hz)]
    rfl

/-- The entry of key `i` in a table of the keys `0 … k - 1`. -/
theorem find?_map_range (f : Nat → α) (k i : Nat) :
    ((List.range k).map fun j => (j, f j)).find? (·.1 == i) =
      if i < k then some (i, f i) else none := by
  induction k with
  | zero => simp
  | succ k ih =>
    rw [List.range_succ, List.map_append, List.find?_append, ih]
    by_cases hi : i < k
    · simp [hi, Nat.lt_succ_of_lt hi]
    · by_cases hik : i = k
      · subst hik; simp
      · simp [hi, Ne.symm hik]; omega

end Sorted

section AddLine

/-- The sums a set keeps for a row read at positions `0 … W - 1` with weight `v p` at `p`. -/
def summed (v : Nat → Float) (W : Nat) : List (Nat × Float) :=
  (List.range W).map fun p => (p, 0 + v p)

/-- The stored line of a first reading: its nonzero sums, by column. -/
def firstLine (v : Nat → Float) (W : Nat) : List (Nat × Float) :=
  sortByKey ((summed v W).filter fun q => q.2 != 0)

theorem addLine_range_eq_ok {cs : ConstraintSet} {k W : Nat} {v : Nat → Float} {S : ConstraintSet}
    (hk : (k : Int) < cs.rows) (hW : (W : Int) ≤ cs.cols) :
    cs.addLine k ((List.range W).map fun (p : Nat) => (p : Int)) ((List.range W).map v) = .ok S ↔
      match cs.find? k with
      | some stored => ConstraintSet.agrees k stored (summed v W) = .ok () ∧ S = cs
      | none => S = { cs with lines := insertByKey (k, firstLine v W) cs.lines } := by
  unfold ConstraintSet.addLine
  rw [sums_range cs v hW, ite_throw_bind_eq_ok]
  simp only [Int.toNat_natCast]
  cases hf : cs.find? k with
  | none => simp [pure, Except.pure, bind, Except.bind, summed, firstLine, eq_comm]; omega
  | some stored =>
    simp only [summed]
    cases ha : ConstraintSet.agrees k stored ((List.range W).map fun p => (p, 0 + v p)) <;>
      simp [ha, bind, Except.bind, pure, Except.pure, eq_comm, hk]

theorem agrees_eq_ok {row : Nat} {stored given : List (Nat × Float)} :
    ConstraintSet.agrees row stored given = .ok () ↔
      (∀ x ∈ stored, (sumAt given x.1 != x.2) = false) ∧
        ∀ x ∈ given, (x.2 != 0 && sumAt stored x.1 == 0) = false := by
  unfold ConstraintSet.agrees
  simp only [bind_unit_eq_ok]
  rw [forIn_unit_eq_ok (fun x => sumAt given x.1 != x.2) (fun x hx => ?_) (fun x hx => ?_),
    forIn_unit_eq_ok (fun x => x.2 != 0 && sumAt stored x.1 == 0) (fun x hx => ?_) (fun x hx => ?_)]
  · simp [(perm_sortByKey given).mem_iff, pure, Except.pure]
  all_goals simp [hx, pure, Except.pure, throw, throwThe, MonadExceptOf.throw, bind, Except.bind]

/-- How the set compares a sum `w` given again with the sum `w₀` first given at the same
column: a nonzero first sum must be met exactly (IEEE `==`), and no new sum may be nonzero. -/
def WeightsAgree (w₀ w : Float) : Prop :=
  ((w₀ != 0) = true → (w != w₀) = false) ∧ ((w != 0) = true → (w₀ != 0) = true)

theorem mem_summed {v : Nat → Float} {W : Nat} {x : Nat × Float} :
    x ∈ summed v W ↔ ∃ p < W, x = (p, 0 + v p) := by
  simp [summed, eq_comm]

theorem nodup_summed (v : Nat → Float) (W : Nat) : ((summed v W).map (·.1)).Nodup := by
  simpa [summed, Function.comp_def] using List.nodup_range

theorem mem_firstLine {v : Nat → Float} {W : Nat} {x : Nat × Float} :
    x ∈ firstLine v W ↔ ∃ p < W, x = (p, 0 + v p) ∧ (0 + v p != 0) = true := by
  rw [firstLine, (perm_sortByKey _).mem_iff, List.mem_filter, mem_summed]
  constructor
  · rintro ⟨⟨p, hp, rfl⟩, h⟩
    exact ⟨p, hp, rfl, h⟩
  · rintro ⟨p, hp, rfl, h⟩
    exact ⟨⟨p, hp, rfl⟩, h⟩

theorem nodup_firstLine (v : Nat → Float) (W : Nat) : ((firstLine v W).map (·.1)).Nodup :=
  ((perm_sortByKey _).map _).nodup_iff.2 ((nodup_summed v W).sublist ((List.filter_sublist).map _))

theorem sumAt_firstLine {v : Nat → Float} {W p : Nat} (hp : p < W) :
    sumAt (firstLine v W) p = if (0 + v p != 0) = true then 0 + v p else 0 := by
  split
  · exact sumAt_of_mem (nodup_firstLine v W) (mem_firstLine.2 ⟨p, hp, rfl, by assumption⟩)
  · refine sumAt_of_not_mem fun x hx hxp => ?_
    obtain ⟨q, -, rfl, hq⟩ := mem_firstLine.1 hx
    subst hxp
    contradiction

theorem sumAt_summed {v : Nat → Float} {W p : Nat} (hp : p < W) : sumAt (summed v W) p = 0 + v p :=
  sumAt_of_mem (nodup_summed v W) (mem_summed.2 ⟨p, hp, rfl⟩)

/-- **A line given again is accepted** exactly when at every column it agrees with the line first
given for the row. -/
theorem agrees_firstLine {row W : Nat} {v₀ v : Nat → Float} :
    ConstraintSet.agrees row (firstLine v₀ W) (summed v W) = .ok () ↔
      ∀ p < W, WeightsAgree (0 + v₀ p) (0 + v p) := by
  rw [agrees_eq_ok]
  constructor
  · rintro ⟨hstored, hgiven⟩ p hp
    refine ⟨fun h₀ => ?_, fun h => ?_⟩
    · simpa [sumAt_summed hp] using hstored _ (mem_firstLine.2 ⟨p, hp, rfl, h₀⟩)
    · have hnew := hgiven _ (mem_summed.2 ⟨p, hp, rfl⟩)
      rw [sumAt_firstLine hp] at hnew
      split at hnew
      · assumption
      · have hzero : ((0 : Float) == 0) = true := by decide
        simp only [h, hzero, Bool.and_self] at hnew
        exact absurd hnew (by decide)
  · intro hagree
    refine ⟨fun x hx => ?_, fun x hx => ?_⟩
    · obtain ⟨p, hp, rfl, h₀⟩ := mem_firstLine.1 hx
      rw [sumAt_summed hp]
      exact (hagree p hp).1 h₀
    · obtain ⟨p, hp, rfl⟩ := mem_summed.1 hx
      rw [sumAt_firstLine hp]
      split
      · rename_i h₀
        have : (0 + v₀ p == 0) = false := by simpa [bne] using h₀
        simp [this]
      · rename_i h₀
        cases hv : (0 + v p != 0)
        · rfl
        · exact absurd ((hagree p hp).2 hv) (by simp [h₀])

end AddLine

section LocalRow

theorem localColumn_eq_none {cols : List Int} {col : Int} :
    localColumn cols col = none ↔ col ∉ cols := by
  unfold localColumn
  rw [Option.map_eq_none_iff, List.find?_eq_none]
  constructor
  · intro h hcol
    obtain ⟨p, hp, hget⟩ := List.getElem_of_mem hcol
    exact h (col, p)
      (List.mem_reverse.2 (List.mem_zipIdx_iff_getElem?.2 (by rw [List.getElem?_eq_getElem hp, hget])))
      (by simp)
  · intro h x hx hx1
    rw [List.mem_reverse, List.mem_zipIdx_iff_getElem?] at hx
    have hx1 : x.1 = col := by simpa using hx1
    exact h (hx1 ▸ List.mem_of_getElem? hx)

theorem getElem?_of_localColumn {cols : List Int} {col : Int} {lc : Nat}
    (h : localColumn cols col = some lc) : cols[lc]? = some col := by
  unfold localColumn at h
  obtain ⟨x, hx, rfl⟩ := Option.map_eq_some_iff.1 h
  have hmem := List.mem_of_find?_eq_some hx
  have hcol : x.1 = col := by simpa using List.find?_some hx
  rw [List.mem_reverse, List.mem_zipIdx_iff_getElem?] at hmem
  rw [hmem, hcol]

variable {W : Nat} {Q : Nat → Nat}

theorem localColumn_range_eq_none {col : Nat} :
    localColumn ((List.range W).map fun p => (Q p : Int)) col = none ↔ ∀ p < W, Q p ≠ col := by
  simp [localColumn_eq_none]

theorem localColumn_range_eq_some {col lc : Nat}
    (h : localColumn ((List.range W).map fun p => (Q p : Int)) col = some lc) :
    lc < W ∧ Q lc = col := by
  have := getElem?_of_localColumn h
  by_cases hlc : lc < W
  · simp_all
  · simp [hlc] at this

/-- What reading column `col` of row `row` does to its line-local positions and weights. -/
def placeColumn (C : Matrix) (cols : List Int) (row : Nat) (acc : List Int × List Float)
    (col : Nat) : List Int × List Float :=
  match localColumn cols col with
  | none => acc
  | some lc => (acc.1.set lc lc, acc.2.set lc (C.get row col))

/-- The line-local positions and weights of row `row` once the columns below `m` are read. -/
def placedBelow (C : Matrix) (W : Nat) (Q : Nat → Nat) (row m : Nat) : List Int × List Float :=
  ((List.range W).map fun p => if Q p < m then (p : Int) else 0,
    (List.range W).map fun p => if Q p < m then C.get row (Q p) else 0)

theorem set_map_range {β : Type} (f : Nat → β) (lc : Nat) (b : β) :
    ((List.range W).map f).set lc b = (List.range W).map fun p => if p = lc then b else f p := by
  refine List.ext_getElem (by simp) fun p h₁ h₂ => ?_
  simp only [List.getElem_set, List.getElem_map, List.getElem_range]
  split <;> simp_all [eq_comm]

theorem placeColumn_placedBelow {C : Matrix} {row : Nat}
    (hinj : ∀ p < W, ∀ q < W, Q p = Q q → p = q) (m : Nat) :
    placeColumn C ((List.range W).map fun p => (Q p : Int)) row (placedBelow C W Q row m) m =
      placedBelow C W Q row (m + 1) := by
  unfold placeColumn
  cases h : localColumn ((List.range W).map fun p => (Q p : Int)) m with
  | none =>
    have hne := localColumn_range_eq_none.1 h
    simp only [placedBelow, Prod.mk.injEq]
    constructor <;> refine List.map_congr_left fun p hp => ?_ <;>
      have := hne p (List.mem_range.1 hp) <;> simp only [Nat.lt_succ_iff_lt_or_eq, this, or_false]
  | some lc =>
    obtain ⟨hlc, rfl⟩ := localColumn_range_eq_some h
    simp only [placedBelow, set_map_range, Prod.mk.injEq]
    constructor <;> refine List.map_congr_left fun p hp => ?_
    all_goals
      by_cases hp' : p = lc
      · subst hp'; simp
      · have : Q p < Q lc + 1 ↔ Q p < Q lc :=
          ⟨fun h => Nat.lt_of_le_of_ne (Nat.le_of_lt_succ h)
            fun hq => hp' (hinj p (List.mem_range.1 hp) lc hlc hq), Nat.lt_succ_of_lt⟩
        simp only [hp', if_false, this]

theorem foldl_placeColumn {C : Matrix} {row : Nat}
    (hinj : ∀ p < W, ∀ q < W, Q p = Q q → p = q) (m : Nat) :
    (List.range m).foldl (placeColumn C ((List.range W).map fun p => (Q p : Int)) row)
      (placedBelow C W Q row 0) = placedBelow C W Q row m := by
  induction m with
  | zero => rfl
  | succ m ih =>
    rw [List.range_succ, List.foldl_append, ih, List.foldl_cons, List.foldl_nil,
      placeColumn_placedBelow hinj]

theorem placedBelow_of_le {C : Matrix} {row m : Nat} (hQ : ∀ p < W, Q p < m) :
    placedBelow C W Q row m =
      ((List.range W).map fun (p : Nat) => (p : Int), (List.range W).map fun p => C.get row (Q p)) := by
  simp only [placedBelow, Prod.mk.injEq]
  constructor <;> refine List.map_congr_left fun p hp => ?_ <;> simp [hQ p (List.mem_range.1 hp)]

/-- **Reading a row along a face line.** When the line's columns are distinct columns of the
matrix, the row is read exactly when it has no nonzero weight off the line, and then as its
weights at the line's columns, by position. -/
theorem localRow_eq_ok {C : Matrix} {l row : Nat} {r : List Int × List Float}
    (hne : C.isEmpty = false) (hrow : row < C.rows) (hQ : ∀ p < W, Q p < C.cols)
    (hinj : ∀ p < W, ∀ q < W, Q p = Q q → p = q) :
    localRow C ((List.range W).map fun p => (Q p : Int)) W l row = .ok r ↔
      (∀ col < C.cols, (∀ p < W, Q p ≠ col) → (C.get row col != 0) = false) ∧
        r = ((List.range W).map fun (p : Nat) => (p : Int),
          (List.range W).map fun p => C.get row (Q p)) := by
  unfold localRow
  have hstart : (List.replicate W (0 : Int), List.replicate W (0 : Float)) =
      placedBelow C W Q row 0 := by
    simp [placedBelow, List.map_const']
  simp only [Int.toNat_natCast, hstart]
  rw [foldlM_eq_ok_iff (placeColumn C _ row)
    (fun col => (∀ p < W, Q p ≠ col) ∧ (C.get row col != 0) = true)
    (fun acc col hcol hbad => ?_) (fun acc col hcol hbad => ?_), foldl_placeColumn hinj,
    placedBelow_of_le hQ]
  · simp only [List.mem_range, not_and, Bool.not_eq_true]
  all_goals
    rw [Matrix.entry_of_lt hne hrow (List.mem_range.1 hcol)]
    simp only [liftMatrix, Except.mapError, bind, Except.bind]
  · unfold placeColumn
    cases h : localColumn ((List.range W).map fun p => (Q p : Int)) col with
    | none =>
      have hw : (C.get row col != 0) = false := by
        simpa using fun h' => hbad ⟨localColumn_range_eq_none.1 h, h'⟩
      simp [hw, pure, Except.pure]
    | some lc =>
      have hlc := (localColumn_range_eq_some h).1
      simp [hlc, pure, Except.pure]
  · rw [localColumn_range_eq_none.2 hbad.1]
    simp [hbad.2, report]

end LocalRow

section Lines

/-- The constraint row of refined dof `k` on face line `l`: the dofs of the line's midpoint, then
those of its half-line at the start and at the end. -/
def lineRow (dv dl l k : Nat) : Nat :=
  if k < dv then dv + l * dv + k else 5 * dv + 4 * dl + 2 * l * dl + (k - dv)

/-- The constraint column of coarse dof `p` on face line `l`: the dofs of its start vertex, of its
end vertex, then of its interior. -/
def lineColumn (dv dl l p : Nat) : Nat :=
  let ends := faceLineEnds.getD l (0, 0)
  if p < dv then ends.1 * dv + p
  else if p < 2 * dv then ends.2 * dv + (p - dv)
  else 4 * dv + l * dl + (p - 2 * dv)

theorem upTo_natCast (n : Nat) : upTo n = (List.range n).map fun (d : Nat) => (d : Int) := by
  simp [upTo]

theorem lineRows_eq (dv dl l : Nat) :
    lineRows dv dl l = (List.range (dv + 2 * dl)).map fun k => (lineRow dv dl l k : Int) := by
  rw [lineRows, upTo_natCast, upTo_natCast, Nat.two_mul, List.range_add, List.range_add]
  simp only [List.map_append, List.map_map, List.flatMap_cons, List.flatMap_nil, List.append_nil]
  refine congrArg₂ (· ++ ·) ?_ (congrArg₂ (· ++ ·) ?_ ?_) <;>
    refine List.map_congr_left fun d hd => ?_ <;> have hd := List.mem_range.1 hd <;>
    simp only [Function.comp_apply]
  · rw [lineRow, if_pos hd]
    push_cast; ring
  · rw [lineRow, if_neg (by omega), show dv + d - dv = d by omega]
    push_cast; ring
  · rw [lineRow, if_neg (by omega), show dv + (dl + d) - dv = dl + d by omega]
    push_cast; ring

theorem lineColumns_eq (dv dl l : Nat) :
    lineColumns dv dl l = (List.range (2 * dv + dl)).map fun p => (lineColumn dv dl l p : Int) := by
  simp only [lineColumns, lineColumn]
  generalize faceLineEnds.getD l (0, 0) = ends
  obtain ⟨a, b⟩ := ends
  rw [upTo_natCast, upTo_natCast, Nat.two_mul, List.range_add, List.range_add]
  simp only [List.map_append, List.map_map, List.flatMap_cons, List.flatMap_nil, List.append_nil]
  refine congrArg₂ (· ++ ·) (congrArg₂ (· ++ ·) ?_ ?_) ?_ <;>
    refine List.map_congr_left fun d hd => ?_ <;> have hd := List.mem_range.1 hd <;>
    simp only [Function.comp_apply]
  · rw [if_pos hd]
    push_cast; ring
  · rw [if_neg (by omega), if_pos (by omega), show dv + d - dv = d by omega]
    push_cast; ring
  · rw [if_neg (by omega), if_neg (by omega), show dv + dv + d - (dv + dv) = d by omega]
    push_cast; ring

variable {dv dl l : Nat}

theorem lineRow_lt (hl : l < 4) {k : Nat} (hk : k < dv + 2 * dl) :
    lineRow dv dl l k < 5 * dv + 12 * dl := by
  interval_cases l <;> simp only [lineRow] <;> split <;> omega

theorem lineColumn_lt (hl : l < 4) {p : Nat} (hp : p < 2 * dv + dl) :
    lineColumn dv dl l p < 4 * dv + 4 * dl := by
  interval_cases l <;> simp only [lineColumn, faceLineEnds] <;> simp <;> split_ifs <;> omega

theorem lineColumn_inj (hl : l < 4) {p q : Nat} (hp : p < 2 * dv + dl) (hq : q < 2 * dv + dl)
    (h : lineColumn dv dl l p = lineColumn dv dl l q) : p = q := by
  interval_cases l <;> simp [lineColumn, faceLineEnds] at h <;> split_ifs at h <;> omega

end Lines

section FaceLines

variable {C : Matrix} {dv dl l : Nat}

/-- Row `row` of `C` has no nonzero weight off the columns of face line `l`. -/
def OnLine (C : Matrix) (dv dl l row : Nat) : Prop :=
  ∀ col < C.cols, (∀ p < 2 * dv + dl, lineColumn dv dl l p ≠ col) → (C.get row col != 0) = false

/-- Room for the refined dofs and the coarse dofs of a face line can be allocated. -/
def LineRoom (dv dl : Nat) : Prop := dv + 2 * dl ≤ 2 ^ 45 ∧ 2 * dv + dl ≤ 2 ^ 45

/-- **Reading a face line.** When the line's rows and columns lie in the matrix and room for them
can be allocated, the line is read exactly when every refined row has no weight off the line and
adding it to the set succeeds. -/
theorem addFaceLine_eq_ok (T : Nat → ConstraintSet) (add : Nat → Prop) (hl : l < 4)
    (hne : C.isEmpty = false) (hrows : 5 * dv + 12 * dl ≤ C.rows)
    (hcols : 4 * dv + 4 * dl ≤ C.cols) (hroom : LineRoom dv dl)
    (hadd : ∀ k < dv + 2 * dl, ∀ S, (T k).addLine k
        ((List.range (2 * dv + dl)).map fun (p : Nat) => (p : Int))
        ((List.range (2 * dv + dl)).map fun p => C.get (lineRow dv dl l k) (lineColumn dv dl l p)) =
          .ok S ↔ add k ∧ S = T (k + 1))
    {S : ConstraintSet} :
    addFaceLine C dv dl (T 0) l = .ok S ↔
      (∀ k < dv + 2 * dl, OnLine C dv dl l (lineRow dv dl l k) ∧ add k) ∧
        S = T (dv + 2 * dl) := by
  unfold addFaceLine
  have hH : (dv : Int) + 2 * dl = ((dv + 2 * dl : Nat) : Int) := by push_cast; ring
  have hW : 2 * (dv : Int) + dl = ((2 * dv + dl : Nat) : Int) := by push_cast; ring
  have hfitH := Numeric.roomFits_natCast (n := dv + 2 * dl) (by unfold LineRoom at hroom; omega)
  have hfitW := Numeric.roomFits_natCast (n := 2 * dv + dl) (by unfold LineRoom at hroom; omega)
  dsimp only
  rw [hH, hW, hfitH, hfitW, Numeric.wrapWord_eq_self.2 ⟨by omega, by unfold LineRoom at hroom; omega⟩]
  simp only [decide_eq_true hroom.1, decide_eq_true hroom.2, Bool.not_true, Bool.false_eq_true,
    if_false]
  rw [lineRows_eq, lineColumns_eq,
    foldlM_zipIdx_eq_ok_iff T (fun k => OnLine C dv dl l (lineRow dv dl l k) ∧ add k)
      (fun k hk S => ?_)]
  · simp only [List.length_map, List.length_range]
  simp only [List.length_map, List.length_range] at hk
  have hread := fun r => localRow_eq_ok (l := l) (r := r) hne (Nat.lt_of_lt_of_le (lineRow_lt hl hk) hrows)
    (fun p hp => Nat.lt_of_lt_of_le (lineColumn_lt hl hp) hcols) (fun p hp q hq => lineColumn_inj hl hp hq)
  simp only [List.getElem_map, List.getElem_range, bind_eq_ok]
  constructor
  · rintro ⟨r, hr, h⟩
    obtain ⟨hon, rfl⟩ := (hread r).1 hr
    have h' : (T k).addLine k ((List.range (2 * dv + dl)).map fun (p : Nat) => (p : Int))
        ((List.range (2 * dv + dl)).map fun p => C.get (lineRow dv dl l k) (lineColumn dv dl l p)) =
          .ok S := by
      revert h
      cases (T k).addLine k _ _ <;> simp [report, pure, Except.pure]
    obtain ⟨ha, rfl⟩ := (hadd k hk S).1 h'
    exact ⟨⟨hon, ha⟩, rfl⟩
  · rintro ⟨⟨hon, ha⟩, rfl⟩
    refine ⟨_, (hread _).2 ⟨hon, rfl⟩, ?_⟩
    dsimp only
    rw [(hadd k hk _).2 ⟨ha, rfl⟩]
    rfl

/-- The weight of refined dof `k` on coarse dof `p` of face line `l`, summed from `+0` as the set
sums it. -/
def lineWeight (C : Matrix) (dv dl l k p : Nat) : Float :=
  0 + C.get (lineRow dv dl l k) (lineColumn dv dl l p)

/-- **Consistency along face lines, as a condition on weights.** On every face line each refined
dof depends only on the coarse dofs of the line, and on the lines after the first with the same
weights as on the first. -/
structure LinesAgree (C : Matrix) (dv dl : Nat) : Prop where
  onLine : ∀ l < 4, ∀ k < dv + 2 * dl, OnLine C dv dl l (lineRow dv dl l k)
  agree : ∀ l, 1 ≤ l → l < 4 → ∀ k < dv + 2 * dl, ∀ p < 2 * dv + dl,
    WeightsAgree (lineWeight C dv dl 0 k p) (lineWeight C dv dl l k p)

/-- The set once the first `k` refined rows of face line `0` are read. -/
def firstRows (C : Matrix) (dv dl k : Nat) : ConstraintSet where
  rows := dv + 2 * dl
  cols := 2 * dv + dl
  lines := (List.range k).map fun j =>
    (j, firstLine (fun p => C.get (lineRow dv dl 0 j) (lineColumn dv dl 0 p)) (2 * dv + dl))

theorem find?_firstRows {k j : Nat} : (firstRows C dv dl k).find? j =
    if j < k then some (firstLine (fun p => C.get (lineRow dv dl 0 j) (lineColumn dv dl 0 p))
      (2 * dv + dl)) else none := by
  simp only [ConstraintSet.find?, firstRows, find?_map_range]
  split <;> rfl

theorem addFaceLine_first (hne : C.isEmpty = false) (hrows : 5 * dv + 12 * dl ≤ C.rows)
    (hcols : 4 * dv + 4 * dl ≤ C.cols) (hroom : LineRoom dv dl) {S : ConstraintSet} :
    addFaceLine C dv dl (ConstraintSet.empty (dv + 2 * dl) (2 * dv + dl)) 0 = .ok S ↔
      (∀ k < dv + 2 * dl, OnLine C dv dl 0 (lineRow dv dl 0 k)) ∧
        S = firstRows C dv dl (dv + 2 * dl) := by
  rw [show ConstraintSet.empty (dv + 2 * dl) (2 * dv + dl) = firstRows C dv dl 0 from rfl,
    addFaceLine_eq_ok (firstRows C dv dl) (fun _ => True) (by omega) hne hrows hcols hroom
      (fun k hk S => ?_)]
  · simp
  rw [addLine_range_eq_ok (by simp [firstRows]; omega) (by simp [firstRows]), find?_firstRows,
    if_neg (Nat.lt_irrefl k), true_and]
  dsimp only
  rw [insertByKey_of_lt fun y hy => ?_]
  · simp [firstRows, List.range_succ]
  obtain ⟨j, hj, rfl⟩ := List.mem_map.1 hy
  exact List.mem_range.1 hj

theorem addFaceLine_again (hl : l < 4) (hne : C.isEmpty = false)
    (hrows : 5 * dv + 12 * dl ≤ C.rows) (hcols : 4 * dv + 4 * dl ≤ C.cols)
    (hroom : LineRoom dv dl) {S : ConstraintSet} :
    addFaceLine C dv dl (firstRows C dv dl (dv + 2 * dl)) l = .ok S ↔
      (∀ k < dv + 2 * dl, OnLine C dv dl l (lineRow dv dl l k) ∧
        ∀ p < 2 * dv + dl, WeightsAgree (lineWeight C dv dl 0 k p) (lineWeight C dv dl l k p)) ∧
        S = firstRows C dv dl (dv + 2 * dl) := by
  rw [addFaceLine_eq_ok (fun _ => firstRows C dv dl (dv + 2 * dl))
    (fun k => ∀ p < 2 * dv + dl, WeightsAgree (lineWeight C dv dl 0 k p) (lineWeight C dv dl l k p))
    hl hne hrows hcols hroom (fun k hk S => ?_)]
  rw [addLine_range_eq_ok (by simp [firstRows]; omega) (by simp [firstRows]), find?_firstRows,
    if_pos hk]
  dsimp only
  rw [agrees_firstLine]
  rfl

end FaceLines

section Consistency

variable {C : Matrix} {dv dl : Nat}

theorem linesAgree_iff : LinesAgree C dv dl ↔
    (∀ k < dv + 2 * dl, OnLine C dv dl 0 (lineRow dv dl 0 k)) ∧
      ∀ l ∈ [1, 2, 3], ∀ k < dv + 2 * dl, OnLine C dv dl l (lineRow dv dl l k) ∧
        ∀ p < 2 * dv + dl, WeightsAgree (lineWeight C dv dl 0 k p) (lineWeight C dv dl l k p) := by
  constructor
  · rintro ⟨hon, hagree⟩
    refine ⟨hon 0 (by omega), fun l hl k hk => ⟨hon l ?_ k hk, hagree l ?_ ?_ k hk⟩⟩ <;>
      simp at hl <;> omega
  · rintro ⟨h₀, h⟩
    refine ⟨fun l hl k hk => ?_, fun l hl₁ hl k hk => (h l ?_ k hk).2⟩
    · rcases Nat.eq_zero_or_pos l with rfl | hl₁
      · exact h₀ k hk
      · exact (h l (by simp; omega) k hk).1
    · simp; omega

/-- A face line whose rows or columns cannot be allocated room is not read. -/
theorem addFaceLine_ne_ok_of_room (hword : 5 * dv + 12 * dl < 2 ^ 63) (hroom : ¬LineRoom dv dl)
    (cs : ConstraintSet) (l : Nat) {S : ConstraintSet} : addFaceLine C dv dl cs l ≠ .ok S := by
  unfold addFaceLine
  have hH : (dv : Int) + 2 * dl = ((dv + 2 * dl : Nat) : Int) := by push_cast; ring
  have hW : 2 * (dv : Int) + dl = ((2 * dv + dl : Nat) : Int) := by push_cast; ring
  dsimp only
  rw [hH, hW, Numeric.roomFits_natCast (by omega), Numeric.roomFits_natCast (by omega)]
  unfold LineRoom at hroom
  -- one of the two lists asks for more room than can be allocated
  by_cases h₁ : dv + 2 * dl ≤ 2 ^ 45
  · have h₂ : ¬(2 * dv + dl ≤ 2 ^ 45) := fun h₂ => hroom ⟨h₁, h₂⟩
    rw [if_neg (by simpa using h₁), if_pos (by simpa using h₂)]
    simp [liftFault, Except.mapError, bind, Except.bind]
  · rw [if_pos (by simpa using h₁)]
    simp [liftFault, Except.mapError, bind, Except.bind]

/-- **Consistency along face lines.** A 3D constraint matrix whose line rows and columns lie in
it, below a machine word, passes the check exactly when room for a line's dofs can be allocated
and its weights agree along the face lines. -/
theorem consistentAlongLines_eq_ok {fd : DofLayout} (h3 : fd.dim = 3) (hne : C.isEmpty = false)
    (hv : fd.dofsPerVertex = dv) (hl : fd.dofsPerLine = dl) (hrows : 5 * dv + 12 * dl ≤ C.rows)
    (hcols : 4 * dv + 4 * dl ≤ C.cols) (hword : 5 * dv + 12 * dl < 2 ^ 63) :
    consistentAlongLines fd C = .ok () ↔ LineRoom dv dl ∧ LinesAgree C dv dl := by
  unfold consistentAlongLines
  simp only [h3, hne, hv, hl, bne_self_eq_false, Bool.or_false, Bool.false_eq_true, if_false]
  rw [show List.range 4 = [0, 1, 2, 3] from rfl]
  by_cases hroom : LineRoom dv dl
  swap
  · -- the first face line already asks for too much room
    simp only [hroom, false_and, iff_false]
    intro h
    obtain ⟨S, hS, -⟩ := bind_eq_ok.1 h
    simp only [List.foldlM_cons, bind_eq_ok] at hS
    obtain ⟨S₀, h₀, -⟩ := hS
    exact addFaceLine_ne_ok_of_room hword hroom _ 0 h₀
  have hH : Numeric.wrapWord ((dv : Int) + 2 * dl) = ((dv + 2 * dl : Nat) : Int) := by
    rw [Numeric.wrapWord_eq_self.2 ⟨by omega, by omega⟩]; push_cast; ring
  have hW : Numeric.wrapWord (2 * (dv : Int) + dl) = ((2 * dv + dl : Nat) : Int) := by
    rw [Numeric.wrapWord_eq_self.2 ⟨by omega, by omega⟩]; push_cast; ring
  rw [hH, hW, linesAgree_iff]
  simp [hroom, bind_eq_ok, pure, Except.pure, addFaceLine_first hne hrows hcols hroom,
    addFaceLine_again (by omega : 1 < 4) hne hrows hcols hroom,
    addFaceLine_again (by omega : 2 < 4) hne hrows hcols hroom,
    addFaceLine_again (by omega : 3 < 4) hne hrows hcols hroom]

theorem consistentAlongLines_of_dim_ne {fd : DofLayout} (h : fd.dim ≠ 3) :
    consistentAlongLines fd C = .ok () := by
  simp [consistentAlongLines, h, pure, Except.pure]

theorem consistentAlongLines_of_isEmpty {fd : DofLayout} (h : C.isEmpty = true) :
    consistentAlongLines fd C = .ok () := by
  simp [consistentAlongLines, h, pure, Except.pure]

/-- The weights agree along face lines on any matrix with the same columns and weights. -/
theorem LinesAgree.congr {C' : Matrix} (hcols : C'.cols = C.cols)
    (hget : ∀ i j, C'.get i j = C.get i j) (h : LinesAgree C dv dl) : LinesAgree C' dv dl where
  onLine l hl k hk col hcol hoff := by
    rw [hget]
    exact h.onLine l hl k hk col (hcols ▸ hcol) hoff
  agree l hl₁ hl k hk p hp := by
    simp only [lineWeight, hget]
    exact h.agree l hl₁ hl k hk p hp

end Consistency

end FiniteElements.Constraint
