import FiniteElements.Element.Error
import Mathlib

/-!
# Reading successful computations

Every query of an element and every construction step is a computation in `Except`: it either
answers or fails. The proofs about elements take a successful run apart step by step, and build
one from steps that are known to succeed. This file gives the facts they use for that: a bind, a
change of error, and a map over a list succeed exactly when their parts do.
-/

namespace FiniteElements.Element

set_option autoImplicit false

variable {ε ε' α β : Type}

theorem bind_eq_ok {x : Except ε α} {f : α → Except ε β} {b : β} :
    (x >>= f) = .ok b ↔ ∃ a, x = .ok a ∧ f a = .ok b := by
  cases x <;> simp [bind, Except.bind]

/-- A step that only checks is followed exactly when it passes. -/
theorem bind_unit_eq_ok {x : Except ε PUnit} {f : PUnit → Except ε β} {b : β} :
    (x >>= f) = .ok b ↔ x = .ok () ∧ f () = .ok b :=
  bind_eq_ok.trans ⟨fun ⟨_, h⟩ => h, fun h => ⟨_, h⟩⟩

theorem mapError_eq_ok {x : Except ε α} {g : ε → ε'} {a : α} :
    x.mapError g = .ok a ↔ x = .ok a := by
  cases x <;> simp [Except.mapError]

theorem mapError_eq_error {x : Except ε α} {g : ε → ε'} {e : ε'} :
    x.mapError g = .error e ↔ ∃ e₀, x = .error e₀ ∧ g e₀ = e := by
  cases x <;> simp [Except.mapError]

theorem bind_eq_error {x : Except ε α} {f : α → Except ε β} {e : ε} :
    (x >>= f) = .error e ↔ x = .error e ∨ ∃ a, x = .ok a ∧ f a = .error e := by
  cases x <;> simp [bind, Except.bind]

/-- A map over a list succeeds with `ys` exactly when each entry succeeds with the entry of `ys`
at its place. -/
theorem mapM_eq_ok {f : α → Except ε β} :
    ∀ {xs : List α} {ys : List β}, xs.mapM f = .ok ys ↔ List.Forall₂ (fun x y => f x = .ok y) xs ys
  | [], ys => by cases ys <;> simp [pure, Except.pure]
  | x :: xs, ys => by
    rw [List.mapM_cons]
    constructor
    · intro h
      obtain ⟨y, hy, h⟩ := bind_eq_ok.1 h
      obtain ⟨ys', hys, h⟩ := bind_eq_ok.1 h
      cases h
      exact .cons hy (mapM_eq_ok.1 hys)
    · rintro (_ | ⟨hy, hys⟩)
      rw [hy]
      change (do let ys ← xs.mapM f; pure (_ :: ys)) = _
      rw [mapM_eq_ok.2 hys]
      rfl

/-- A map whose every entry succeeds with a known value succeeds with the list of values. -/
theorem mapM_eq_ok_map {f : α → Except ε β} {g : α → β} {xs : List α}
    (h : ∀ x ∈ xs, f x = .ok (g x)) : xs.mapM f = .ok (xs.map g) := by
  refine mapM_eq_ok.2 ?_
  induction xs with
  | nil => exact .nil
  | cons x xs ih =>
    exact .cons (h x (List.mem_cons_self ..)) (ih fun y hy => h y (List.mem_cons_of_mem _ hy))

/-- A map whose every entry succeeds succeeds. -/
theorem exists_mapM_eq_ok {f : α → Except ε β} :
    ∀ {xs : List α}, (∀ x ∈ xs, ∃ y, f x = .ok y) → ∃ ys, xs.mapM f = .ok ys
  | [], _ => ⟨[], rfl⟩
  | x :: xs, h => by
    obtain ⟨y, hy⟩ := h x List.mem_cons_self
    obtain ⟨ys, hys⟩ := exists_mapM_eq_ok fun z hz => h z (List.mem_cons_of_mem _ hz)
    exact ⟨y :: ys, mapM_eq_ok.2 (.cons hy (mapM_eq_ok.1 hys))⟩

theorem length_eq_of_mapM_eq_ok {f : α → Except ε β} {xs : List α} {ys : List β}
    (h : xs.mapM f = .ok ys) : ys.length = xs.length :=
  (mapM_eq_ok.1 h).length_eq.symm

/-- The result of a successful map at a position is what the entry there succeeds with. -/
theorem getElem_of_mapM_eq_ok {f : α → Except ε β} {xs : List α} {ys : List β}
    (h : xs.mapM f = .ok ys) {i : Nat} (hi : i < xs.length) (hj : i < ys.length) :
    f xs[i] = .ok ys[i] := by
  simpa only [List.get_eq_getElem] using (List.forall₂_iff_get.1 (mapM_eq_ok.1 h)).2 i hi hj

theorem checkIndex_eq_ok {what : Counted} {i n : Int} {k : Nat} :
    checkIndex what i n = .ok k ↔ 0 ≤ i ∧ i < n ∧ k = i.toNat := by
  unfold checkIndex
  by_cases h : 0 ≤ i ∧ i < n
  · simp [h, eq_comm]
  · simp only [h, if_false, reduceCtorEq, false_iff]
    omega

theorem checkIndex_of_lt {what : Counted} {k : Nat} {n : Int} (h : (k : Int) < n) :
    checkIndex what k n = .ok k := by
  simp [checkIndex, h]

/-- An index in range reads its entry. -/
theorem liftFault_checkedIndex {xs : List α} {k : Nat} (hk : k < xs.length) (d : α) :
    liftFault (checkedIndex xs k) = .ok (xs.getD k d) := by
  simp [liftFault, checkedIndex, hk, Except.mapError, List.getD_eq_getElem?_getD]

theorem throw_bind_ne_ok {e : ε} {f : α → Except ε β} {b : β} :
    (throw e >>= f : Except ε β) ≠ .ok b := by
  intro h
  cases h

/-- A guard `if p then throw e` followed by `x` succeeds exactly when the guard does not fire and
`x` succeeds. -/
theorem ite_throw_bind_eq_ok {p : Prop} [Decidable p] {e : ε} {f : PUnit → Except ε β}
    {x : Except ε β} {b : β} : (if p then (throw e >>= f) else x) = .ok b ↔ ¬p ∧ x = .ok b := by
  by_cases h : p <;> simp [h, throw, throwThe, MonadExceptOf.throw, bind, Except.bind]

/-- A guard `if p then report e` followed by `x` succeeds exactly when the guard does not fire and
`x` succeeds. -/
theorem ite_report_bind_eq_ok {γ : Type} {p : Prop} [Decidable p] {e : ElementError}
    {f : γ → Outcome β} {x : Outcome β} {b : β} :
    (if p then (report e >>= f) else x) = .ok b ↔ ¬p ∧ x = .ok b := by
  by_cases h : p <;> simp [h, report, bind, Except.bind]

/-- A failed map fails at one of its entries, with that entry's error. -/
theorem exists_of_mapM_eq_error {f : α → Except ε β} :
    ∀ {xs : List α} {e : ε}, xs.mapM f = .error e → ∃ x ∈ xs, f x = .error e
  | [], e, h => by simp [pure, Except.pure] at h
  | x :: xs, e, h => by
    rw [List.mapM_cons] at h
    cases hx : f x with
    | error e' =>
      rw [hx] at h
      cases h
      exact ⟨x, List.mem_cons_self .., hx⟩
    | ok y =>
      rw [hx] at h
      cases hxs : xs.mapM f with
      | error e' =>
        rw [hxs] at h
        cases h
        obtain ⟨x', hx', he⟩ := exists_of_mapM_eq_error hxs
        exact ⟨x', List.mem_cons_of_mem _ hx', he⟩
      | ok ys =>
        rw [hxs] at h
        cases h

/-- **A fold keeps what each successful step keeps.** -/
theorem foldlM_invariant {f : β → α → Except ε β} (I : β → Prop)
    (hstep : ∀ acc x b, I acc → f acc x = .ok b → I b) :
    ∀ {xs : List α} {init b : β}, I init → xs.foldlM f init = .ok b → I b
  | [], _, _, hI, h => by
    cases h
    exact hI
  | x :: xs, init, b, hI, h => by
    rw [List.foldlM_cons, bind_eq_ok] at h
    obtain ⟨a, ha, h⟩ := h
    exact foldlM_invariant I hstep (hstep init x a hI ha) h

/-- **A failed fold fails at one of its steps**, taken from a state that keeps every invariant of
the successful steps. -/
theorem exists_of_foldlM_eq_error {f : β → α → Except ε β} (I : β → Prop)
    (hstep : ∀ acc x b, I acc → f acc x = .ok b → I b) :
    ∀ {xs : List α} {init : β} {e : ε}, I init → xs.foldlM f init = .error e →
      ∃ acc, I acc ∧ ∃ x ∈ xs, f acc x = .error e
  | [], _, _, _, h => by cases h
  | x :: xs, init, e, hI, h => by
    rw [List.foldlM_cons, bind_eq_error] at h
    rcases h with h | ⟨a, ha, h⟩
    · exact ⟨init, hI, x, List.mem_cons_self, h⟩
    · obtain ⟨acc, hacc, y, hy, hy'⟩ := exists_of_foldlM_eq_error I hstep (hstep init x a hI ha) h
      exact ⟨acc, hacc, y, List.mem_cons_of_mem x hy, hy'⟩

/-- A fold whose every step succeeds with a pure update is the fold of that update. -/
theorem foldlM_eq_ok_foldl {f : β → α → Except ε β} {g : β → α → β} :
    ∀ {xs : List α} {init : β}, (∀ acc, ∀ x ∈ xs, f acc x = .ok (g acc x)) →
      xs.foldlM f init = .ok (xs.foldl g init)
  | [], _, _ => rfl
  | x :: xs, init, h => by
    rw [List.foldlM_cons, h init x List.mem_cons_self, List.foldl_cons]
    exact foldlM_eq_ok_foldl fun acc y hy => h acc y (List.mem_cons_of_mem _ hy)

/-- A fold whose steps each either make a pure update or fail, by a condition on the element
alone, succeeds exactly when no element meets the condition, with the fold of the updates. -/
theorem foldlM_eq_ok_iff {f : β → α → Except ε β} (g : β → α → β) (bad : α → Prop) :
    ∀ {xs : List α} {init b : β}, (∀ acc, ∀ x ∈ xs, ¬bad x → f acc x = .ok (g acc x)) →
      (∀ acc, ∀ x ∈ xs, bad x → ∃ e, f acc x = .error e) →
      (xs.foldlM f init = .ok b ↔ (∀ x ∈ xs, ¬bad x) ∧ b = xs.foldl g init)
  | [], _, _, _, _ => by simp [pure, Except.pure, eq_comm]
  | x :: xs, init, b, hok, herr => by
    rw [List.foldlM_cons, List.foldl_cons]
    by_cases hx : bad x
    · obtain ⟨e, he⟩ := herr init x List.mem_cons_self hx
      simp [he, bind, Except.bind, hx]
    · rw [hok init x List.mem_cons_self hx]
      simp only [bind, Except.bind, List.mem_cons, forall_eq_or_imp]
      rw [foldlM_eq_ok_iff g bad (fun acc y hy => hok acc y (List.mem_cons_of_mem _ hy))
        (fun acc y hy => herr acc y (List.mem_cons_of_mem _ hy))]
      exact ⟨fun h => ⟨⟨hx, h.1⟩, h.2⟩, fun h => ⟨h.1.2, h.2⟩⟩

/-- A fold along a list with positions, whose step from the `k`-th state succeeds exactly under a
condition `Q k` and then with the next state, succeeds exactly when every condition holds. -/
theorem foldlM_zipIdx_eq_ok_iff {f : β → α × Nat → Except ε β} (T : Nat → β) (Q : Nat → Prop) :
    ∀ {xs : List α}, (∀ k (hk : k < xs.length) S,
        f (T k) (xs[k], k) = .ok S ↔ Q k ∧ S = T (k + 1)) →
      ∀ {S : β}, xs.zipIdx.foldlM f (T 0) = .ok S ↔ (∀ k < xs.length, Q k) ∧ S = T xs.length := by
  intro xs
  induction xs using List.reverseRecOn with
  | nil => intro _ S; simp [pure, Except.pure, eq_comm]
  | append_singleton xs x ih =>
    intro hstep S
    have hxs : ∀ k (hk : k < xs.length) S, f (T k) (xs[k], k) = .ok S ↔ Q k ∧ S = T (k + 1) :=
      fun k hk S => by
        have := hstep k (by simp; omega) S
        rwa [List.getElem_append_left hk] at this
    have hx := hstep xs.length (by simp) S
    simp only [List.getElem_append_right (Nat.le_refl _), Nat.sub_self, List.getElem_singleton]
      at hx
    rw [List.zipIdx_append, List.foldlM_append, bind_eq_ok]
    simp only [ih hxs, List.zipIdx_singleton, Nat.zero_add, List.foldlM_cons, List.foldlM_nil,
      List.length_append, List.length_singleton]
    constructor
    · rintro ⟨_, ⟨hQ, rfl⟩, h⟩
      rw [bind_eq_ok] at h
      obtain ⟨S', hS', hpure⟩ := h
      cases hpure
      obtain ⟨hq, rfl⟩ := hx.1 hS'
      refine ⟨fun k hk => ?_, rfl⟩
      rcases Nat.lt_succ_iff_lt_or_eq.1 hk with hk | rfl
      · exact hQ k hk
      · exact hq
    · rintro ⟨hQ, rfl⟩
      refine ⟨T xs.length, ⟨fun k hk => hQ k (by omega), rfl⟩, ?_⟩
      rw [hx.2 ⟨hQ _ (by omega), rfl⟩]
      rfl

/-- A loop whose every round either goes on or fails, by a test of the element, succeeds exactly
when the test passes everywhere. -/
theorem forIn_unit_eq_ok {xs : List α} {f : α → PUnit → Except ε (ForInStep PUnit)}
    (bad : α → Bool) (hok : ∀ x, bad x = false → f x () = .ok (.yield ()))
    (herr : ∀ x, bad x = true → ∃ e, f x () = .error e) :
    forIn xs () f = .ok () ↔ ∀ x ∈ xs, bad x = false := by
  induction xs with
  | nil => simp [pure, Except.pure]
  | cons x xs ih =>
    rw [List.forIn_cons]
    cases hb : bad x with
    | false =>
      simp only [hok x hb, bind, Except.bind, ih, List.mem_cons, forall_eq_or_imp, hb, true_and]
    | true =>
      obtain ⟨e, he⟩ := herr x hb
      simp [he, bind, Except.bind, hb]

/-- A failed loop fails at one of its rounds, with that round's error. -/
theorem exists_of_forIn_unit_eq_error {xs : List α} {f : α → PUnit → Except ε (ForInStep PUnit)}
    {e : ε} (h : forIn xs () f = .error e) : ∃ x ∈ xs, f x () = .error e := by
  induction xs with
  | nil => cases h
  | cons x xs ih =>
    rw [List.forIn_cons, bind_eq_error] at h
    rcases h with h | ⟨step, -, h⟩
    · exact ⟨x, List.mem_cons_self, h⟩
    · cases step with
      | done => cases h
      | yield =>
        obtain ⟨y, hy, hy'⟩ := ih h
        exact ⟨y, List.mem_cons_of_mem x hy, hy'⟩

/-- The value of a successful run, `default` for a failed one: names the results of runs on
fixed inputs. -/
def okValue [Inhabited α] : Except ε α → α
  | .ok a => a
  | .error _ => default

theorem eq_ok_okValue [Inhabited α] {x : Except ε α} (h : x.isOk = true) : x = .ok (okValue x) := by
  cases x with
  | ok a => rfl
  | error e => cases h

@[simp] theorem report_ne_ok {e : ElementError} {a : α} : (report e : Outcome α) ≠ .ok a := by
  simp [report]

@[simp] theorem abort_ne_ok {e : ElementError} {a : α} : (abort e : Outcome α) ≠ .ok a := by
  simp [abort]

end FiniteElements.Element
