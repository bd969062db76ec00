import Mathlib
import FiniteElements.Cell.EdgeKey

/-!
# Edge keys name unordered vertex pairs

An edge key packs the two vertices of a line into one 64-bit word, the smaller vertex in the low
half and the larger in the high half. It can do so only for vertices in `[0, 2^32)`
(`EdgeKey.Fits`); any other pair is refused with the error that names it.

Below the bound both halves come back unchanged (`EdgeKey.vertices_pack`), so the word is a
faithful code of the pair `(min, max)`: two pairs get the same key exactly when they are the same
unordered pair, whatever the order they were given in. The cell's line tables are matched by these
keys, so this is what makes the face-line table independent of how a face lists its vertices.

## Main definitions

* `FiniteElements.Cell.EdgeKey.Fits`: both vertices in `[0, 2^32)`.
* `FiniteElements.Cell.EdgeKey.pack`: the word of an ordered pair of halves.

## Main results

* `EdgeKey.ofVertices_of_fits`, `EdgeKey.ofVertices_of_not_fits`: what a key is built from.
* `EdgeKey.vertices_pack`, `EdgeKey.pack_inj`: the halves are read back and tell keys apart.
* `EdgeKey.ofVertices_eq_ofVertices_iff`: keys of pairs that fit are equal exactly when the
  unordered pairs are.
* `EdgeKey.ofVertices_names_unordered_pairs`: all of it for every pair of integers.
-/

namespace FiniteElements.Cell.EdgeKey

set_option autoImplicit false

/-- The pairs an edge key can hold: both vertices in `[0, 2^32)`. -/
def Fits (v0 v1 : Int) : Prop := 0 ≤ min v0 v1 ∧ max v0 v1 ≤ 4294967295

instance (v0 v1 : Int) : Decidable (Fits v0 v1) := inferInstanceAs (Decidable (_ ∧ _))

/-- The key with `lo` in the low half of its word and `hi` in the high half. -/
def pack (lo hi : Nat) : EdgeKey := ⟨(hi * 2 ^ 32 + lo).toUInt64⟩

/-- The keys write the half-word as `Nat.pow 2 32`. -/
theorem pow_halfWord : Nat.pow 2 32 = 2 ^ 32 := rfl

section Build

variable {v0 v1 w0 w1 : Int}

theorem ofVertices_of_fits (h : Fits v0 v1) :
    ofVertices v0 v1 = .ok (pack (min v0 v1).toNat (max v0 v1).toNat) := by
  unfold Fits at h
  simp only [ofVertices, pack, pow_halfWord]
  rw [if_neg (by simp; omega)]

theorem not_fits_iff : ¬Fits v0 v1 ↔ min v0 v1 < 0 ∨ 4294967295 < max v0 v1 := by
  rw [Fits]
  omega

theorem ofVertices_of_not_fits (h : ¬Fits v0 v1) :
    ofVertices v0 v1 = .error (.vertexOutOfRange v0 v1) := by
  simp only [ofVertices]
  rw [if_pos (by simpa using not_fits_iff.1 h)]

/-- Both halves of a pair that fits are below `2^32`. -/
theorem halves_lt (h : Fits v0 v1) : (min v0 v1).toNat < 2 ^ 32 ∧ (max v0 v1).toNat < 2 ^ 32 := by
  unfold Fits at h
  omega

end Build

section Pack

variable {lo hi lo' hi' : Nat}

/-- Two halves below `2^32` fill the word without wrapping. -/
theorem toNat_word_pack (hlo : lo < 2 ^ 32) (hhi : hi < 2 ^ 32) :
    (pack lo hi).word.toNat = hi * 2 ^ 32 + lo := by
  rw [pack, Nat.toUInt64_eq, UInt64.toNat_ofNat']
  exact Nat.mod_eq_of_lt (by omega)

theorem vertices_pack (hlo : lo < 2 ^ 32) (hhi : hi < 2 ^ 32) :
    (pack lo hi).vertices = (lo, hi) := by
  simp only [vertices, toNat_word_pack hlo hhi, pow_halfWord, Prod.mk.injEq]
  omega

theorem pack_inj (hlo : lo < 2 ^ 32) (hhi : hi < 2 ^ 32) (hlo' : lo' < 2 ^ 32)
    (hhi' : hi' < 2 ^ 32) : pack lo hi = pack lo' hi' ↔ lo = lo' ∧ hi = hi' := by
  constructor
  · intro h
    have hv := congrArg vertices h
    rw [vertices_pack hlo hhi, vertices_pack hlo' hhi'] at hv
    simpa using hv
  · rintro ⟨rfl, rfl⟩
    rfl

end Pack

variable {v0 v1 w0 w1 : Int}

/-- **Keys compare unordered pairs.** Of two pairs that fit, the keys agree exactly when the
pairs hold the same two vertices, in either order. -/
theorem ofVertices_eq_ofVertices_iff (hv : Fits v0 v1) (hw : Fits w0 w1) :
    ofVertices v0 v1 = ofVertices w0 w1 ↔ s(v0, v1) = s(w0, w1) := by
  obtain ⟨hv₁, hv₂⟩ := halves_lt hv
  obtain ⟨hw₁, hw₂⟩ := halves_lt hw
  rw [ofVertices_of_fits hv, ofVertices_of_fits hw, Except.ok.injEq, pack_inj hv₁ hv₂ hw₁ hw₂,
    Sym2.eq_iff]
  -- the same `(min, max)` is the same unordered pair
  unfold Fits at hv hw
  omega

/-- **Edge keys.** Building a key fails exactly when a vertex lies outside `[0, 2^32)`; the key
of a pair that fits holds its smaller vertex first and its larger second; and two pairs that fit
have the same key exactly when they are the same unordered pair. -/
theorem ofVertices_names_unordered_pairs (v0 v1 w0 w1 : Int) :
    ((∃ e, ofVertices v0 v1 = .error e) ↔ min v0 v1 < 0 ∨ 4294967295 < max v0 v1) ∧
    (Fits v0 v1 → ∃ k, ofVertices v0 v1 = .ok k ∧
      (k.vertices.1 : Int) = min v0 v1 ∧ (k.vertices.2 : Int) = max v0 v1) ∧
    (Fits v0 v1 → Fits w0 w1 →
      (ofVertices v0 v1 = ofVertices w0 w1 ↔ s(v0, v1) = s(w0, w1))) := by
  refine ⟨?_, fun h => ?_, ofVertices_eq_ofVertices_iff⟩
  · rw [← not_fits_iff]
    constructor
    · rintro ⟨e, he⟩ h
      rw [ofVertices_of_fits h] at he
      cases he
    · exact fun h => ⟨_, ofVertices_of_not_fits h⟩
  · obtain ⟨hlo, hhi⟩ := halves_lt h
    refine ⟨_, ofVertices_of_fits h, ?_⟩
    rw [vertices_pack hlo hhi]
    unfold Fits at h
    omega

/-- The largest vertex an edge key holds, given first or second, names one key. -/
theorem ofVertices_names_unordered_pairs_top :
    Fits 4294967295 7 ∧ Fits 7 4294967295 ∧ ofVertices 4294967295 7 = ofVertices 7 4294967295 :=
  ⟨by decide, by decide,
    ((ofVertices_names_unordered_pairs 4294967295 7 7 4294967295).2.2 (by decide)
      (by decide)).2 Sym2.eq_swap⟩

end FiniteElements.Cell.EdgeKey
