import FiniteElements.Proofs.Constraint.Lines

/-!
# Adding lines to a constraint set

A constraint set is changed only by adding lines, and a line is added in three stages: the row
and the lengths are checked, the weights are summed per column in the order given (a column out
of range stops the summing), and then either the row is new and its nonzero sums are stored, or
the row is already constrained and the new sums are compared with the stored weights.

This file follows a set through any sequence of additions, a refused addition keeping the set as
it was (`ConstraintSet.run`):

* the sums a line gives are the weights at each column summed from `+0` in the order given
  (`sumAt_sums`), so a first line stores exactly its columns with a nonzero sum, increasing
  (`addLine_first`);
* a line given again is accepted exactly when its sum at every column meets the stored weight
  (IEEE `==`, a column that is not stored weighing `0`), and then the set is unchanged
  (`addLine_again_iff`);
* every set reached this way is tidy (`ConstraintSet.Tidy`): stored columns are increasing and in
  range, stored weights nonzero, so a weight is nonzero exactly on the columns of its row's line.

## Main definitions

* `FiniteElements.Constraint.givenWeight`, `FiniteElements.Constraint.freshLine`
* `ConstraintSet.apply`, `ConstraintSet.run`, `ConstraintSet.Tidy`

## Main results

* `ConstraintSet.addLine_eq_ok`: when an addition succeeds, and with what.
* `ConstraintSet.Tidy.run`: every set reached from an empty one is tidy.
* `ConstraintSet.addLine_laws`: the laws of an addition to any set so reached.
-/

set_option autoImplicit false

namespace FiniteElements.Constraint

open FiniteElements.Element

/-- The weight a line gives column `c`: its weights at `c` summed in the order given, from `+0`,
and `0` when the line does not name `c`. -/
def givenWeight (cols : List Int) (weights : List Float) (c : Nat) : Float :=
  ((cols.zip weights).filter (·.1 == (c : Int))).foldl (fun s p => s + p.2) 0

/-- The line stored for a row given for the first time: every column below `n` with a nonzero
weight, increasing, with that weight. -/
def freshLine (cols : List Int) (weights : List Float) (n : Nat) : List (Nat × Float) :=
  (List.range n).filterMap fun c =>
    if (givenWeight cols weights c != 0) = true then some (c, givenWeight cols weights c) else none

section Sums

/-- Accumulating a weight changes the sum of its own column only. -/
theorem sumAt_accumulate (sums : List (Nat × Float)) (d c : Nat) (w : Float) :
    sumAt (accumulate sums d w) c = if d = c then sumAt sums c + w else sumAt sums c := by
  induction sums with
  | nil => by_cases h : d = c <;> simp [accumulate, sumAt, h]
  | cons x rest ih =>
    obtain ⟨e, s⟩ := x
    by_cases hed : e = d
    · subst hed
      by_cases hc : e = c <;> simp [accumulate, sumAt, hc]
    · by_cases hec : e = c
      · subst hec
        simp [accumulate, sumAt, hed, Ne.symm hed]
      · simp only [accumulate, beq_iff_eq, hed, if_false]
        simpa [sumAt, hec] using ih

theorem keys_accumulate (sums : List (Nat × Float)) (d : Nat) (w : Float) :
    (accumulate sums d w).map (·.1) =
      if d ∈ sums.map (·.1) then sums.map (·.1) else sums.map (·.1) ++ [d] := by
  induction sums with
  | nil => simp [accumulate]
  | cons x rest ih =>
    obtain ⟨e, s⟩ := x
    by_cases hed : e = d
    · subst hed; simp [accumulate]
    · simp only [accumulate, beq_iff_eq, hed, if_false, List.map_cons, ih, List.mem_cons,
        Ne.symm hed, false_or]
      split <;> rfl

theorem nodup_accumulate {sums : List (Nat × Float)} (h : (sums.map (·.1)).Nodup) (d : Nat)
    (w : Float) : ((accumulate sums d w).map (·.1)).Nodup := by
  rw [keys_accumulate]
  split
  · exact h
  · rename_i hd
    exact h.append (List.nodup_singleton d) (by simpa using hd)

variable {pairs : List (Int × Float)}

/-- Summing a line's weights into a table, column by column. -/
def sumInto (acc : List (Nat × Float)) (p : Int × Float) : List (Nat × Float) :=
  accumulate acc p.1.toNat p.2

theorem sumAt_foldl_sumInto (hnn : ∀ p ∈ pairs, 0 ≤ p.1) (acc : List (Nat × Float)) (c : Nat) :
    sumAt (pairs.foldl sumInto acc) c =
      (pairs.filter (·.1 == (c : Int))).foldl (fun s p => s + p.2) (sumAt acc c) := by
  induction pairs generalizing acc with
  | nil => rfl
  | cons p rest ih =>
    rw [List.foldl_cons, ih (fun q hq => hnn q (List.mem_cons_of_mem _ hq)), sumInto,
      sumAt_accumulate]
    have hp := hnn p List.mem_cons_self
    by_cases hpc : p.1 = c
    · simp [hpc]
    · have : p.1.toNat ≠ c := by omega
      simp [hpc, this]

theorem nodup_foldl_sumInto {acc : List (Nat × Float)} (h : (acc.map (·.1)).Nodup) :
    ((pairs.foldl sumInto acc).map (·.1)).Nodup := by
  induction pairs generalizing acc with
  | nil => exact h
  | cons p rest ih => exact ih (nodup_accumulate h _ _)

/-- A column summed is one given, or one summed before. -/
theorem mem_keys_foldl_sumInto {acc : List (Nat × Float)} {c : Nat}
    (h : c ∈ (pairs.foldl sumInto acc).map (·.1)) :
    c ∈ acc.map (·.1) ∨ ∃ p ∈ pairs, p.1.toNat = c := by
  induction pairs generalizing acc with
  | nil => exact .inl h
  | cons p rest ih =>
    rcases ih h with hacc | ⟨q, hq, hqc⟩
    · rw [sumInto, keys_accumulate] at hacc
      split at hacc
      · exact .inl hacc
      · rcases List.mem_append.1 hacc with hacc | hacc
        · exact .inl hacc
        · exact .inr ⟨p, List.mem_cons_self, (List.mem_singleton.1 hacc).symm⟩
    · exact .inr ⟨q, List.mem_cons_of_mem _ hq, hqc⟩

end Sums

section Sorted

variable {α : Type}

theorem pairwise_insertByKey (x : Nat × α) :
    ∀ {ys : List (Nat × α)}, ys.Pairwise (fun a b => a.1 ≤ b.1) →
      (insertByKey x ys).Pairwise (fun a b => a.1 ≤ b.1)
  | [], _ => List.pairwise_singleton _ x
  | y :: ys, h => by
    rw [List.pairwise_cons] at h
    unfold insertByKey
    split
    · rename_i hxy
      refine List.Pairwise.cons (fun z hz => ?_) (List.pairwise_cons.2 h)
      rcases List.mem_cons.1 hz with rfl | hz
      · exact hxy
      · exact Nat.le_trans hxy (h.1 z hz)
    · rename_i hxy
      refine List.Pairwise.cons (fun z hz => ?_) (pairwise_insertByKey x h.2)
      rcases List.mem_cons.1 ((perm_insertByKey x ys).mem_iff.1 hz) with rfl | hz
      · omega
      · exact h.1 z hz

theorem pairwise_sortByKey :
    ∀ xs : List (Nat × α), (sortByKey xs).Pairwise (fun a b => a.1 ≤ b.1)
  | [] => .nil
  | x :: xs => pairwise_insertByKey x (pairwise_sortByKey xs)

/-- Sorted with no key twice is increasing. -/
theorem increasing_sortByKey {xs : List (Nat × α)} (h : (xs.map (·.1)).Nodup) :
    (sortByKey xs).Pairwise (fun a b => a.1 < b.1) := by
  have hkeys : ((sortByKey xs).map (·.1)).Nodup := ((perm_sortByKey xs).map _).nodup_iff.2 h
  rw [List.Nodup, List.pairwise_map] at hkeys
  exact ((pairwise_sortByKey xs).and hkeys).imp fun h => Nat.lt_of_le_of_ne h.1 h.2

/-- Two lists increasing by key with the same entries are equal. -/
theorem eq_of_increasing {xs ys : List (Nat × α)} (hx : xs.Pairwise (fun a b => a.1 < b.1))
    (hy : ys.Pairwise (fun a b => a.1 < b.1)) (h : ∀ z, z ∈ xs ↔ z ∈ ys) : xs = ys := by
  have hnx : xs.Nodup := hx.imp fun {a b} h (hab : a = b) => Nat.lt_irrefl _ (hab ▸ h)
  have hny : ys.Nodup := hy.imp fun {a b} h (hab : a = b) => Nat.lt_irrefl _ (hab ▸ h)
  exact ((List.perm_ext_iff_of_nodup hnx hny).2 h).eq_of_pairwise
    (fun a b _ _ hab hba => absurd (Nat.lt_trans hab hba) (Nat.lt_irrefl _)) hx hy

/-- Inserting a row leaves the lines of the other rows. -/
theorem find?_insertByKey_of_ne {r r' : Nat} (x : α) (h : r ≠ r') :
    ∀ ys : List (Nat × α), (insertByKey (r, x) ys).find? (·.1 == r') = ys.find? (·.1 == r')
  | [] => by simp [insertByKey, h]
  | y :: ys => by
    unfold insertByKey
    split
    · simp [h]
    · by_cases hy : y.1 = r'
      · simp [hy]
      · simp [hy, find?_insertByKey_of_ne x h ys]

/-- A row inserted where it was not is found with its line. -/
theorem find?_insertByKey_self {r : Nat} (x : α) :
    ∀ {ys : List (Nat × α)}, ys.find? (·.1 == r) = none →
      (insertByKey (r, x) ys).find? (·.1 == r) = some (r, x)
  | [], _ => by simp [insertByKey]
  | y :: ys, h => by
    have hy : y.1 ≠ r := by simpa using (List.find?_eq_none.1 h) y List.mem_cons_self
    have hys : ys.find? (·.1 == r) = none :=
      List.find?_eq_none.2 fun z hz => List.find?_eq_none.1 h z (List.mem_cons_of_mem _ hz)
    unfold insertByKey
    split
    · simp
    · simp [hy, find?_insertByKey_self x hys]

end Sorted

section Fresh

variable {cols : List Int} {weights : List Float} {n : Nat}

theorem mem_freshLine {x : Nat × Float} :
    x ∈ freshLine cols weights n ↔
      x.1 < n ∧ (givenWeight cols weights x.1 != 0) = true ∧ x.2 = givenWeight cols weights x.1 := by
  obtain ⟨c, w⟩ := x
  simp only [freshLine, List.mem_filterMap, List.mem_range]
  constructor
  · rintro ⟨c', hc', h⟩
    split at h
    · cases h
      exact ⟨hc', by assumption, rfl⟩
    · cases h
  · rintro ⟨hc, hw, rfl⟩
    exact ⟨c, hc, by simp [hw]⟩

theorem increasing_freshLine : (freshLine cols weights n).Pairwise (fun a b => a.1 < b.1) := by
  unfold freshLine
  refine List.Pairwise.filterMap _ (fun a b hab a' ha' b' hb' => ?_) List.pairwise_lt_range
  split at ha' <;> split at hb' <;> cases ha' <;> cases hb'
  exact hab

/-- **A first line, as stored.** The nonzero sums of a line whose columns are in range, sorted by
column, are its columns with a nonzero given weight, increasing, with that weight. -/
theorem sortByKey_sums (hin : ∀ c ∈ cols, 0 ≤ c ∧ c < n) :
    sortByKey (((cols.zip weights).foldl sumInto []).filter fun p => p.2 != 0) =
      freshLine cols weights n := by
  set given := (cols.zip weights).foldl sumInto []
  have hnodup : (given.map (·.1)).Nodup := nodup_foldl_sumInto List.nodup_nil
  have hsum : ∀ c, sumAt given c = givenWeight cols weights c := by
    intro c
    rw [sumAt_foldl_sumInto (fun p hp => (hin p.1 (List.of_mem_zip hp).1).1)]
    rfl
  refine eq_of_increasing (increasing_sortByKey ?_) increasing_freshLine fun x => ?_
  · exact hnodup.sublist (List.filter_sublist.map _)
  rw [(perm_sortByKey _).mem_iff, List.mem_filter, mem_freshLine]
  constructor
  · rintro ⟨hx, hw⟩
    have hval : x.2 = givenWeight cols weights x.1 := (hsum x.1 ▸ sumAt_of_mem hnodup hx).symm
    -- a summed column is a given one, so it is in range
    rcases mem_keys_foldl_sumInto (List.mem_map_of_mem hx) with h | ⟨p, hp, hpc⟩
    · simp at h
    · have := hin p.1 (List.of_mem_zip hp).1
      exact ⟨by omega, hval ▸ hw, hval⟩
  · rintro ⟨-, hw, hval⟩
    -- a column with a nonzero given weight was summed
    have hkey : x.1 ∈ given.map (·.1) := by
      by_contra hnot
      have h0 := @sumAt_of_not_mem given x.1 fun y hy hyx => hnot (hyx ▸ List.mem_map_of_mem hy)
      rw [hsum] at h0
      rw [h0] at hw
      exact absurd hw (by decide)
    obtain ⟨y, hy, hyx⟩ := List.mem_map.1 hkey
    have hyv : y.2 = givenWeight cols weights x.1 := hyx ▸ (hsum y.1 ▸ sumAt_of_mem hnodup hy).symm
    have : y = x := Prod.ext hyx (hyv.trans hval.symm)
    exact ⟨this ▸ hy, hval ▸ hw⟩

end Fresh

namespace ConstraintSet

variable {cs cs' : ConstraintSet} {row : Int} {cols : List Int} {weights : List Float}

/-- **Summing a line.** It succeeds exactly when there are as many weights as columns and every
column is in range, with one entry per column named, in the order first named. -/
theorem sums_eq_ok {given : List (Nat × Float)} :
    cs.sums cols weights = .ok given ↔
      cols.length = weights.length ∧ (∀ c ∈ cols, 0 ≤ c ∧ c < cs.cols) ∧
        given = (cols.zip weights).foldl sumInto [] := by
  unfold sums
  by_cases hlen : cols.length = weights.length
  · have hbad : ∀ acc, ∀ p ∈ cols.zip weights, ¬¬(0 ≤ p.1 ∧ p.1 < cs.cols) →
        (if 0 ≤ p.1 ∧ p.1 < cs.cols then Except.ok (accumulate acc p.1.toNat p.2)
          else .error (ElementError.indexRange .constrainingColumn p.1 cs.cols)) =
          .ok (sumInto acc p) := fun acc p _ hp => if_pos (not_not.1 hp)
    have hfail : ∀ acc, ∀ p ∈ cols.zip weights, ¬(0 ≤ p.1 ∧ p.1 < cs.cols) →
        ∃ e, (if 0 ≤ p.1 ∧ p.1 < cs.cols then Except.ok (accumulate acc p.1.toNat p.2)
          else .error (ElementError.indexRange .constrainingColumn p.1 cs.cols)) = .error e :=
      fun acc p _ hp => ⟨_, if_neg hp⟩
    have hcols : (cols.zip weights).map (·.1) = cols := List.map_fst_zip (by omega)
    simp only [hlen, bne_self_eq_false, Bool.false_eq_true, if_false, true_and]
    rw [foldlM_eq_ok_iff sumInto (fun p => ¬(0 ≤ p.1 ∧ p.1 < cs.cols)) hbad hfail]
    simp only [not_not]
    constructor
    · rintro ⟨h, rfl⟩
      refine ⟨fun c hc => ?_, rfl⟩
      have hc' : c ∈ (cols.zip weights).map (·.1) := by rwa [hcols]
      obtain ⟨p, hp, rfl⟩ := List.mem_map.1 hc'
      exact h p hp
    · rintro ⟨h, rfl⟩
      exact ⟨fun p hp => h p.1 (hcols ▸ List.mem_map_of_mem hp), rfl⟩
  · have : (cols.length != weights.length) = true := by simpa using hlen
    simp [this, hlen, throw, throwThe, MonadExceptOf.throw, bind, Except.bind]

/-- The sums of a line in range are its given weights. -/
theorem sumAt_sums (hin : ∀ c ∈ cols, 0 ≤ c) (c : Nat) :
    sumAt ((cols.zip weights).foldl sumInto []) c = givenWeight cols weights c := by
  rw [sumAt_foldl_sumInto (fun p hp => hin p.1 (List.of_mem_zip hp).1)]
  rfl

/-- **Adding a line.** It succeeds exactly when the row is in range, there are as many weights as
columns and every column is in range, and then either the row is already constrained and the new
sums agree with its line, the set staying as it is, or the row is new and gets its fresh line. -/
theorem addLine_eq_ok :
    cs.addLine row cols weights = .ok cs' ↔
      (0 ≤ row ∧ row < cs.rows) ∧ cols.length = weights.length ∧
        (∀ c ∈ cols, 0 ≤ c ∧ c < cs.cols) ∧
        match cs.find? row.toNat with
        | some stored => agrees row.toNat stored ((cols.zip weights).foldl sumInto []) = .ok () ∧
            cs' = cs
        | none => cs' = { cs with
            lines := insertByKey (row.toNat, freshLine cols weights cs.cols.toNat) cs.lines } := by
  unfold addLine
  rw [ite_throw_bind_eq_ok, not_not, bind_eq_ok]
  simp only [sums_eq_ok]
  -- a fresh line is read off the sums of a line in range
  have hfresh : (∀ c ∈ cols, 0 ≤ c ∧ c < cs.cols) →
      sortByKey (((cols.zip weights).foldl sumInto []).filter fun p => p.2 != 0) =
        freshLine cols weights cs.cols.toNat := fun hin =>
    sortByKey_sums fun c hc => ⟨(hin c hc).1, by have := hin c hc; omega⟩
  cases hf : cs.find? row.toNat with
  | some stored =>
    simp only [bind_eq_ok, pure, Except.pure, Except.ok.injEq]
    constructor
    · rintro ⟨hrow, given, ⟨hlen, hin, rfl⟩, u, hu, rfl⟩
      exact ⟨hrow, hlen, hin, hu, rfl⟩
    · rintro ⟨hrow, hlen, hin, hu, rfl⟩
      exact ⟨hrow, _, ⟨hlen, hin, rfl⟩, (), hu, rfl⟩
  | none =>
    simp only [pure, Except.pure, Except.ok.injEq]
    constructor
    · rintro ⟨hrow, given, ⟨hlen, hin, rfl⟩, rfl⟩
      exact ⟨hrow, hlen, hin, by rw [hfresh hin]⟩
    · rintro ⟨hrow, hlen, hin, rfl⟩
      exact ⟨hrow, _, ⟨hlen, hin, rfl⟩, by rw [hfresh hin]⟩

/-- **A line given again.** Against a stored line whose columns increase, lie below `n` and carry
nonzero weights, a line with columns in range is accepted exactly when at every column below `n`
its given weight meets the stored one (IEEE `==`, a column not stored weighing `0`). -/
theorem agrees_iff {r n : Nat} {stored : List (Nat × Float)}
    (hinc : (stored.map (·.1)).Pairwise (· < ·)) (hrange : ∀ x ∈ stored, x.1 < n)
    (hnz : ∀ x ∈ stored, (x.2 != 0) = true) (hin : ∀ c ∈ cols, 0 ≤ c ∧ c < n) :
    agrees r stored ((cols.zip weights).foldl sumInto []) = .ok () ↔
      ∀ c < n, (givenWeight cols weights c == sumAt stored c) = true := by
  set given := (cols.zip weights).foldl sumInto []
  have hnodup : (stored.map (·.1)).Nodup := hinc.imp Nat.ne_of_lt
  have hgiven : (given.map (·.1)).Nodup := nodup_foldl_sumInto List.nodup_nil
  have hsum : ∀ c, sumAt given c = givenWeight cols weights c :=
    sumAt_sums fun c hc => (hin c hc).1
  have hzero : ((0 : Float) == 0) = true := by decide
  -- the stored weight of a column, zero off the line
  have hstored : ∀ c, (∃ w, (c, w) ∈ stored ∧ sumAt stored c = w ∧ (w != 0) = true) ∨
      sumAt stored c = 0 := by
    intro c
    by_cases hc : ∃ x ∈ stored, x.1 = c
    · obtain ⟨x, hx, rfl⟩ := hc
      exact .inl ⟨x.2, hx, sumAt_of_mem hnodup hx, hnz x hx⟩
    · exact .inr (sumAt_of_not_mem fun x hx hxc => hc ⟨x, hx, hxc⟩)
  rw [agrees_eq_ok]
  constructor
  · rintro ⟨hfirst, hnew⟩ c hc
    rcases hstored c with ⟨w, hw, hsw, -⟩ | hs
    · have := hfirst _ hw
      rw [hsum] at this
      simpa [bne, hsw] using this
    · rw [hs]
      by_cases hg : ∃ x ∈ given, x.1 = c
      · obtain ⟨x, hx, rfl⟩ := hg
        have hxv : x.2 = givenWeight cols weights x.1 := (hsum x.1) ▸ (sumAt_of_mem hgiven hx).symm
        have := hnew x hx
        rw [hs, hzero, Bool.and_true] at this
        simpa [bne, hxv] using this
      · have h0 := sumAt_of_not_mem fun x hx hxc => hg ⟨x, hx, hxc⟩
        rw [hsum] at h0
        rw [h0]
        exact hzero
  · intro h
    refine ⟨fun x hx => ?_, fun x hx => ?_⟩
    · have hx' := h x.1 (hrange x hx)
      rw [sumAt_of_mem hnodup hx] at hx'
      simp [bne, hsum, hx']
    · have hxv : x.2 = givenWeight cols weights x.1 := (hsum x.1) ▸ (sumAt_of_mem hgiven hx).symm
      have hlt : x.1 < n := by
        rcases mem_keys_foldl_sumInto (List.mem_map_of_mem hx) with h | ⟨p, hp, hpc⟩
        · simp at h
        · have := hin p.1 (List.of_mem_zip hp).1
          omega
      rcases hstored x.1 with ⟨w, -, hsw, hw⟩ | hs
      · have : (w == 0) = false := by simpa [bne] using hw
        simp [hsw, this]
      · have := h x.1 hlt
        rw [hs, ← hxv] at this
        simp [bne, hs, this]

/-- The set after a call: the set the call returns, or the set as it was when the call is
refused. -/
def apply (cs : ConstraintSet) (call : Int × List Int × List Float) : ConstraintSet :=
  match cs.addLine call.1 call.2.1 call.2.2 with
  | .ok cs' => cs'
  | .error _ => cs

/-- The set after a sequence of calls. -/
def run (cs : ConstraintSet) (calls : List (Int × List Int × List Float)) : ConstraintSet :=
  calls.foldl apply cs

theorem addLine_cols (h : cs.addLine row cols weights = .ok cs') : cs'.cols = cs.cols := by
  obtain ⟨-, -, -, h⟩ := addLine_eq_ok.1 h
  split at h
  · rw [h.2]
  · rw [h]

theorem addLine_rows (h : cs.addLine row cols weights = .ok cs') : cs'.rows = cs.rows := by
  obtain ⟨-, -, -, h⟩ := addLine_eq_ok.1 h
  split at h
  · rw [h.2]
  · rw [h]

theorem apply_cols (call : Int × List Int × List Float) : (cs.apply call).cols = cs.cols := by
  unfold apply
  split
  · exact addLine_cols (by assumption)
  · rfl

theorem apply_rows (call : Int × List Int × List Float) : (cs.apply call).rows = cs.rows := by
  unfold apply
  split
  · exact addLine_rows (by assumption)
  · rfl

theorem run_cols (calls : List (Int × List Int × List Float)) : (cs.run calls).cols = cs.cols := by
  induction calls generalizing cs with
  | nil => rfl
  | cons call calls ih => exact (@ih (cs.apply call)).trans (apply_cols call)

theorem run_rows (calls : List (Int × List Int × List Float)) : (cs.run calls).rows = cs.rows := by
  induction calls generalizing cs with
  | nil => rfl
  | cons call calls ih => exact (@ih (cs.apply call)).trans (apply_rows call)

theorem find?_insert_self {r : Nat} {line : List (Nat × Float)} (h : cs.find? r = none) :
    ({ cs with lines := insertByKey (r, line) cs.lines } : ConstraintSet).find? r = some line := by
  have : cs.lines.find? (·.1 == r) = none := by simpa [find?] using h
  simp [find?, find?_insertByKey_self line this]

theorem find?_insert_of_ne {r r' : Nat} (line : List (Nat × Float)) (h : r ≠ r') :
    ({ cs with lines := insertByKey (r, line) cs.lines } : ConstraintSet).find? r' = cs.find? r' := by
  simp [find?, find?_insertByKey_of_ne line h]

/-- A tidy set: every stored line has increasing columns, all in range, with nonzero weights. -/
structure Tidy (cs : ConstraintSet) : Prop where
  increasing : ∀ r line, cs.find? r = some line → (line.map (·.1)).Pairwise (· < ·)
  inRange : ∀ r line, cs.find? r = some line → ∀ x ∈ line, (x.1 : Int) < cs.cols
  nonzero : ∀ r line, cs.find? r = some line → ∀ x ∈ line, (x.2 != 0) = true

theorem Tidy.empty (rows cols : Int) : (empty rows cols).Tidy where
  increasing r line h := by simp [ConstraintSet.empty, find?] at h
  inRange r line h := by simp [ConstraintSet.empty, find?] at h
  nonzero r line h := by simp [ConstraintSet.empty, find?] at h

/-- **One call keeps a set tidy.** A refused call and a line given again change nothing, and a
fresh line is increasing, in range and nonzero. -/
theorem Tidy.apply (h : cs.Tidy) (call : Int × List Int × List Float) : (cs.apply call).Tidy := by
  unfold ConstraintSet.apply
  split
  · rename_i cs' hadd
    obtain ⟨⟨hrow, -⟩, -, -, hadd⟩ := addLine_eq_ok.1 hadd
    split at hadd
    · rw [hadd.2]
      exact h
    · rename_i hf
      have hcols : cs'.cols = cs.cols := by rw [hadd]
      have hfresh : ∀ r line, cs'.find? r = some line →
          line = freshLine call.2.1 call.2.2 cs.cols.toNat ∨ cs.find? r = some line := by
        intro r line hr
        rw [hadd] at hr
        by_cases hre : call.1.toNat = r
        · subst hre
          rw [find?_insert_self hf] at hr
          exact .inl (Option.some.inj hr).symm
        · rw [find?_insert_of_ne _ hre] at hr
          exact .inr hr
      refine ⟨fun r line hr => ?_, fun r line hr x hx => ?_, fun r line hr x hx => ?_⟩
      · rcases hfresh r line hr with rfl | hr
        · exact List.pairwise_map.2 increasing_freshLine
        · exact h.increasing r line hr
      · rcases hfresh r line hr with rfl | hr
        · have := (mem_freshLine.1 hx).1
          rw [hcols]
          omega
        · exact hcols ▸ h.inRange r line hr x hx
      · rcases hfresh r line hr with rfl | hr
        · obtain ⟨-, hw, hval⟩ := mem_freshLine.1 hx
          rw [hval]
          exact hw
        · exact h.nonzero r line hr x hx
  · exact h

/-- **Every set reached by calls is tidy.** -/
theorem Tidy.run (h : cs.Tidy) (calls : List (Int × List Int × List Float)) : (cs.run calls).Tidy := by
  induction calls generalizing cs with
  | nil => exact h
  | cons call calls ih => exact ih (h.apply call)

/-- The weight of a row and a column in range is the stored one. -/
theorem weight_of_lt {r c : Int} (hr : 0 ≤ r ∧ r < cs.rows) (hc : 0 ≤ c ∧ c < cs.cols) :
    cs.weight r c = .ok (cs.storedWeight r.toNat c.toNat) := by
  have hr' : checkIndex .constrainedRow r cs.rows = .ok r.toNat := checkIndex_eq_ok.2 ⟨hr.1, hr.2, rfl⟩
  have hc' : checkIndex .constrainingColumn c cs.cols = .ok c.toNat :=
    checkIndex_eq_ok.2 ⟨hc.1, hc.2, rfl⟩
  simp [weight, hr', hc', bind, Except.bind, pure, Except.pure]

/-- **In a tidy set a weight is nonzero exactly on the columns of its row's line.** -/
theorem Tidy.storedWeight_ne_zero (h : cs.Tidy) {r c : Int} (hr : 0 ≤ r) :
    (cs.storedWeight r.toNat c.toNat != 0) = true ↔
      cs.isConstrained r = true ∧ c.toNat ∈ (cs.line? r).map (·.1) := by
  have hzero : ((0 : Float) != 0) = false := by decide
  simp only [storedWeight, isConstrained, line?, hr, decide_true, Bool.true_and, not_lt.2 hr,
    if_false]
  cases hf : cs.find? r.toNat with
  | none => simp [hzero]
  | some line =>
    have hnodup : (line.map (·.1)).Nodup := (h.increasing _ _ hf).imp Nat.ne_of_lt
    simp only [Option.isSome_some, Option.getD_some, true_and]
    by_cases hc : c.toNat ∈ line.map (·.1)
    · obtain ⟨x, hx, hxc⟩ := List.mem_map.1 hc
      rw [← hxc, sumAt_of_mem hnodup hx]
      exact ⟨fun _ => List.mem_map_of_mem hx, fun _ => h.nonzero _ _ hf x hx⟩
    · rw [sumAt_of_not_mem fun x hx (hxc : x.1 = c.toNat) => hc (hxc ▸ List.mem_map_of_mem hx), hzero]
      exact ⟨fun h => absurd h (by decide), fun h => absurd h hc⟩

theorem Tidy.increasing_line (h : cs.Tidy) (r : Int) : ((cs.line? r).map (·.1)).Pairwise (· < ·) := by
  unfold line?
  split
  · exact .nil
  · cases hf : cs.find? r.toNat with
    | none => exact .nil
    | some line => exact h.increasing _ _ hf

theorem isConstrained_eq_true {r : Int} :
    cs.isConstrained r = true ↔ 0 ≤ r ∧ ∃ line, cs.find? r.toNat = some line := by
  simp [isConstrained, Option.isSome_iff_exists]

/-- A line that is not stored, of a row not below zero. -/
theorem find?_of_isConstrained_eq_false {r : Int} (h : cs.isConstrained r = false) (hr : 0 ≤ r) :
    cs.find? r.toNat = none := by
  simpa [isConstrained, hr] using h

/-- The laws of adding lines to a set over `nRows × nCols` indices. -/
structure AddLaws (nRows nCols : Int) (cs : ConstraintSet) : Prop where
  /-- A weight in range is nonzero exactly when its row is constrained and its column is on the
  row's line. -/
  weight_ne_zero : ∀ r c : Int, 0 ≤ r → r < nRows → 0 ≤ c → c < nCols → ∃ w, cs.weight r c = .ok w ∧
    ((w != 0) = true ↔ cs.isConstrained r = true ∧ c.toNat ∈ (cs.line? r).map (·.1))
  /-- The columns of every line increase. -/
  increasing : ∀ r : Int, ((cs.line? r).map (·.1)).Pairwise (· < ·)
  /-- A refused call leaves the set as it was. -/
  refused : ∀ row cols weights, (∃ e, cs.addLine row cols weights = .error e) →
    cs.apply (row, cols, weights) = cs
  /-- A first accepted call on a row stores as its line every column with a nonzero given weight,
  increasing, with that weight, and leaves the lines of the other rows. -/
  first : ∀ row cols weights, cs.isConstrained row = false → ∀ cs',
    cs.addLine row cols weights = .ok cs' →
      cs'.line? row = freshLine cols weights nCols.toNat ∧ ∀ r, r ≠ row → cs'.line? r = cs.line? r
  /-- A later call on a constrained row, with the row and the columns in range and as many
  weights as columns, is accepted exactly when at every column its given weight meets the stored
  weight (IEEE `==`), and then leaves the set as it was. -/
  again : ∀ row cols weights, cs.isConstrained row = true → row < nRows →
    cols.length = weights.length → (∀ c ∈ cols, 0 ≤ c ∧ c < nCols) →
      ((∃ cs', cs.addLine row cols weights = .ok cs') ↔
        ∀ c : Int, 0 ≤ c → c < nCols → ∃ w, cs.weight row c = .ok w ∧
          (givenWeight cols weights c.toNat == w) = true) ∧
      ∀ cs', cs.addLine row cols weights = .ok cs' → cs' = cs

/-- **The laws of adding lines.** Follow a set over `nRows × nCols` indices from empty through any
sequence of calls, a refused call keeping the set as it was: at every point the laws of adding
hold. A first line's given weight at a column is its weights there summed from `+0` in the order
given. -/
theorem addLine_laws (nRows nCols : Int) (calls : List (Int × List Int × List Float)) :
    AddLaws nRows nCols ((empty nRows nCols).run calls) := by
  set cs := (empty nRows nCols).run calls
  have hT : cs.Tidy := (Tidy.empty nRows nCols).run calls
  have hrows : cs.rows = nRows := run_rows calls
  have hcols : cs.cols = nCols := run_cols calls
  refine ⟨fun r c hr hr' hc hc' => ?_, hT.increasing_line, fun row cols weights => ?_,
    fun row cols weights => ?_, fun row cols weights => ?_⟩
  · -- weights are nonzero exactly on the lines
    exact ⟨_, weight_of_lt ⟨hr, hrows ▸ hr'⟩ ⟨hc, hcols ▸ hc'⟩, hT.storedWeight_ne_zero hr⟩
  · -- a refused call
    rintro ⟨e, he⟩
    simp [ConstraintSet.apply, he]
  · -- a first call on a row
    intro hnew cs' hadd
    obtain ⟨⟨hrow, -⟩, -, -, h⟩ := addLine_eq_ok.1 hadd
    rw [find?_of_isConstrained_eq_false hnew hrow] at h
    dsimp only at h
    subst h
    refine ⟨?_, fun r hr => ?_⟩
    · rw [line?, if_neg (not_lt.2 hrow), find?_insert_self (find?_of_isConstrained_eq_false hnew hrow),
        hcols, Option.getD_some]
    · unfold line?
      split
      · rfl
      · rw [find?_insert_of_ne _ (by omega)]
  · -- a line given again
    intro hcon hrow' hlen hin
    obtain ⟨hrow, stored, hf⟩ := isConstrained_eq_true.1 hcon
    have hin' : ∀ c ∈ cols, 0 ≤ c ∧ c < (nCols.toNat : Int) := fun c hc => by
      have := hin c hc
      omega
    have hagree : agrees row.toNat stored ((cols.zip weights).foldl sumInto []) = .ok () ↔
        ∀ c < nCols.toNat, (givenWeight cols weights c == sumAt stored c) = true :=
      agrees_iff (hT.increasing _ _ hf) (fun x hx => by have := hT.inRange _ _ hf x hx; omega)
        (hT.nonzero _ _ hf) hin'
    have hadd : ∀ cs', cs.addLine row cols weights = .ok cs' ↔
        agrees row.toNat stored ((cols.zip weights).foldl sumInto []) = .ok () ∧ cs' = cs := by
      intro cs'
      rw [addLine_eq_ok, hf]
      exact ⟨fun h => h.2.2.2, fun h => ⟨⟨hrow, hrows ▸ hrow'⟩, hlen, hcols ▸ hin, h⟩⟩
    refine ⟨⟨fun ⟨cs', h⟩ => ?_, fun h => ⟨cs, (hadd cs).2 ⟨?_, rfl⟩⟩⟩,
      fun cs' h => ((hadd cs').1 h).2⟩
    · intro c hc hc'
      have hw := hagree.1 ((hadd cs').1 h).1 c.toNat (by omega)
      refine ⟨_, weight_of_lt ⟨hrow, hrows ▸ hrow'⟩ ⟨hc, hcols ▸ hc'⟩, ?_⟩
      simpa [storedWeight, hf] using hw
    · refine hagree.2 fun c hc => ?_
      obtain ⟨w, hw, hgw⟩ := h c (Int.natCast_nonneg c) (by omega)
      rw [weight_of_lt ⟨hrow, hrows ▸ hrow'⟩ ⟨Int.natCast_nonneg c, by omega⟩] at hw
      simpa [storedWeight, hf, ← Except.ok.inj hw] using hgw

/-- A line given again in another order with an explicit zero weight is accepted, one with a
changed weight is refused, and so is a row out of range: one row stays constrained, on columns
`0` and `2`. -/
example :
    let cs := (empty 3 4).run [(1, [0, 2], [0.5, 0.5]), (1, [2, 3, 0], [0.5, 0, 0.5]),
      (1, [0, 2], [0.5, 0.25]), (3, [0], [1])]
    cs.count = 1 ∧ (cs.line? 1).map (·.1) = [0, 2] ∧ cs.isConstrained 0 = false := by
  decide

end ConstraintSet

end FiniteElements.Constraint
