import FiniteElements.Proofs.Element.Assemble
import FiniteElements.Proofs.Layout.Counts
import FiniteElements.Family.Factory

/-!
# Element names read back

Every member of a family is named `family<dim>(degree)`: the family word, the dimension of its
cell and its degree written in decimal (`canonicalName`). Reading a name takes each of these parts
apart, skipping blanks around them, and builds the family member they name. Read back, the name of
an element that the factory builds gives that same element, asked in its own dimension or in
dimension `0`: the blanks, a missing dimension and the leading zeros of the name it was built
from are gone from its own name, and reading is a left inverse of naming on what the factory
builds (`ofName_name`).

## Main definitions

* `Family.canonicalName`

## Main results

* `Family.parse?_canonicalName`: a canonical name reads as its parts.
* `Family.continuous_eq_member`, `Family.discontinuous_eq_member`,
  `Family.raviartThomas_eq_member`: what each family builds.
* `Family.member_name`: a family member carries its canonical name.
* `Family.ofName_name`
-/

namespace FiniteElements.Family

set_option autoImplicit false

open FiniteElements.Element FiniteElements.Cell

/-- The name of a family member: the family word, its dimension in angle brackets and its degree
in parentheses. -/
def canonicalName (family : String) (dim : Int) (degree : Nat) : String :=
  family ++ "<" ++ toString dim ++ ">(" ++ toString degree ++ ")"

section Reading

@[simp] theorem toString_string (s : String) : toString s = s := rfl

theorem digitsValue_toDigits (N : Nat) : digitsValue (Nat.toDigits 10 N) = N :=
  Nat.ofDigitChars_ten_toDigits

theorem isDigitChar_of_mem_toDigits {N : Nat} {c : Char} (h : c ∈ Nat.toDigits 10 N) :
    isDigitChar c = true := by
  have := Nat.isDigit_of_mem_toDigits (by decide) (by decide) h
  simpa [isDigitChar, Char.isDigit, Char.le_def] using this

theorem Char.le_iff_toNat_le {a b : Char} : a ≤ b ↔ a.toNat ≤ b.toNat := by
  rw [Char.le_def, UInt32.le_iff_toNat_le]
  rfl

/-- Word characters are letters, digits and the underscore, all past the blanks. -/
theorem isBlank_of_isWordChar {c : Char} (h : isWordChar c = true) : isBlank c = false := by
  have hge : 48 ≤ c.toNat := by
    simp only [isWordChar, Bool.or_eq_true, Bool.and_eq_true, decide_eq_true_eq, beq_iff_eq,
      Char.le_iff_toNat_le] at h
    rcases h with ((⟨h, -⟩ | ⟨h, -⟩) | ⟨h, -⟩) | rfl <;> simp at * <;> omega
  rw [Bool.eq_false_iff]
  intro hb
  simp only [isBlank, Bool.or_eq_true, beq_iff_eq] at hb
  rcases hb with (((rfl | rfl) | rfl) | h12) | rfl <;> simp_all

theorem isBlank_of_isDigitChar {c : Char} (h : isDigitChar c = true) : isBlank c = false :=
  isBlank_of_isWordChar (by simp_all [isWordChar, isDigitChar])

theorem skipBlanks_of_not_blank {c : Char} {cs : List Char} (h : isBlank c = false) :
    skipBlanks (c :: cs) = c :: cs := by
  simp [skipBlanks, h]

/-- The `<d>` part of a canonical name, for a one-digit dimension. -/
theorem dimPart_digit {d : Nat} (hd : d < 10) (rest : List Char) :
    dimPart ('<' :: d.digitChar :: '>' :: rest) = some (some d, rest) := by
  have hdigit : isDigitChar d.digitChar = true :=
    isDigitChar_of_mem_toDigits (N := d) (by simp [Nat.toDigits_of_lt_base hd])
  have hvalue : digitsValue [d.digitChar] = d := by
    simpa [Nat.toDigits_of_lt_base hd] using digitsValue_toDigits d
  have hclose : skipBlanks ('>' :: rest) = '>' :: rest := skipBlanks_of_not_blank (by decide)
  simp only [dimPart, skipBlanks_of_not_blank (isBlank_of_isDigitChar hdigit), hdigit, hclose,
    hvalue, if_true]

/-- The `(N)` part of a canonical name. -/
theorem degreePart_toDigits (N : Nat) :
    degreePart ('(' :: (Nat.toDigits 10 N ++ [')'])) = some (Nat.toDigits 10 N) := by
  have hdigits : ∀ c ∈ Nat.toDigits 10 N, isDigitChar c = true :=
    fun c hc => isDigitChar_of_mem_toDigits hc
  obtain ⟨c, cs, hcs⟩ := List.exists_cons_of_ne_nil (Nat.toDigits_ne_nil (n := N) (b := 10))
  have hfirst : isBlank c = false := isBlank_of_isDigitChar (hdigits c (by simp [hcs]))
  have hskip : skipBlanks (Nat.toDigits 10 N ++ [')']) = Nat.toDigits 10 N ++ [')'] := by
    rw [hcs]
    exact skipBlanks_of_not_blank hfirst
  simp only [degreePart, hskip, List.takeWhile_append_of_pos hdigits,
    List.dropWhile_append_of_pos hdigits]
  simp [skipBlanks, isBlank, isDigitChar, Nat.toDigits_ne_nil]

/-- **A canonical name reads as its parts**, for a family word and a one-digit dimension. -/
theorem parse?_canonicalName {family : String} (hne : family.toList ≠ [])
    (hword : ∀ c ∈ family.toList, isWordChar c = true) {d : Nat} (hd : d < 10) (N : Nat) :
    ElementName.parse? (canonicalName family d N) = some ⟨family, some d, toString N⟩ := by
  have hchars : (canonicalName family d N).toList =
      family.toList ++ '<' :: d.digitChar :: '>' :: '(' :: (Nat.toDigits 10 N ++ [')']) := by
    have hdim : toString (d : Int) = toString d := rfl
    simp [canonicalName, String.toList_append, hdim, Nat.toDigits_of_lt_base hd]
  obtain ⟨c, cs, hcs⟩ := List.exists_cons_of_ne_nil hne
  -- the name starts with the family word, and each later part starts with no blank
  have hstart : skipBlanks (canonicalName family d N).toList =
      (canonicalName family d N).toList := by
    rw [hchars, hcs]
    exact skipBlanks_of_not_blank (isBlank_of_isWordChar (hword c (by simp [hcs])))
  have hangle : isWordChar '<' = false := by decide
  have hfamily : (canonicalName family d N).toList.takeWhile isWordChar = family.toList := by
    rw [hchars, List.takeWhile_append_of_pos hword, List.takeWhile_cons_of_neg (by simp [hangle]),
      List.append_nil]
  have hrest : (canonicalName family d N).toList.dropWhile isWordChar =
      '<' :: d.digitChar :: '>' :: '(' :: (Nat.toDigits 10 N ++ [')']) := by
    rw [hchars, List.dropWhile_append_of_pos hword, List.dropWhile_cons_of_neg (by simp [hangle])]
  have hopen : skipBlanks ('(' :: (Nat.toDigits 10 N ++ [')'])) =
      '(' :: (Nat.toDigits 10 N ++ [')']) := skipBlanks_of_not_blank (by decide)
  simp only [ElementName.parse?, hstart, hfamily, hrest,
    skipBlanks_of_not_blank (show isBlank '<' = false by decide), dimPart_digit hd]
  simp [hne, hopen, degreePart_toDigits, String.ofList_toList, Nat.toString_eq_repr,
    Nat.repr_eq_ofList_toDigits]

end Reading

section Members

/-- A store made from a definition keeps its name and layout. -/
theorem ofDefinition_name {d : Definition} {s : Store} (h : Store.ofDefinition d = .ok s) :
    s.name = d.name ∧ s.layout = d.layout := by
  obtain ⟨c, tables, -, -, hs⟩ := Store.ofDefinition_eq_ok h
  obtain ⟨-, -, -, -, -, -, -, -, rfl⟩ := Store.assemble_eq_ok hs
  exact ⟨rfl, rfl⟩

/-- **What the continuous family builds**: the member with the store of a definition named
`FE_Q<dim>(degree)` on a layout of dimension `dim`. -/
theorem continuous_eq_member {dim degree : Int} {e : Element} (h : continuous dim degree = .ok e) :
    ∃ d s, Store.ofDefinition d = .ok s ∧ e = .member (.continuous degree.toNat) s ∧
      (∃ c, Hypercube.ofDim? dim = .ok c) ∧ 0 ≤ degree ∧
      d.name = canonicalName "FE_Q" dim degree.toNat ∧ d.layout.dim = dim := by
  unfold continuous at h
  rw [ite_report_bind_eq_ok, bind_eq_ok] at h
  obtain ⟨hdeg, c, hc, h⟩ := h
  rw [bind_eq_ok] at h
  obtain ⟨d, hd, h⟩ := h
  rw [bind_eq_ok] at h
  obtain ⟨s, hs, h⟩ := h
  cases h
  have hcell : Hypercube.ofDim? dim = .ok c := mapError_eq_ok.1 hc
  have hdim := Hypercube.dim_of_ofDim? hcell
  unfold continuousDefinition at hd
  simp only [bind_eq_ok, mapError_eq_ok] at hd
  obtain ⟨fd, hfd, -, -, hd⟩ := hd
  cases hd
  obtain ⟨-, -, hfdim, -⟩ := DofLayout.wf_of_ofCounts? hfd
  refine ⟨_, s, hs, rfl, ⟨c, hcell⟩, by omega, ?_, by rw [hfdim, hdim]⟩
  rw [← hdim]
  rfl

/-- What the discontinuous family builds. -/
theorem discontinuous_eq_member {dim degree : Int} {e : Element}
    (h : discontinuous dim degree = .ok e) :
    ∃ d s, Store.ofDefinition d = .ok s ∧ e = .member (.discontinuous degree.toNat) s ∧
      (∃ c, Hypercube.ofDim? dim = .ok c) ∧ 0 ≤ degree ∧
      d.name = canonicalName "FE_DGQ" dim degree.toNat ∧ d.layout.dim = dim := by
  unfold discontinuous at h
  rw [ite_report_bind_eq_ok, bind_eq_ok] at h
  obtain ⟨hdeg, c, hc, h⟩ := h
  rw [bind_eq_ok] at h
  obtain ⟨d, hd, h⟩ := h
  rw [bind_eq_ok] at h
  obtain ⟨s, hs, h⟩ := h
  cases h
  have hcell : Hypercube.ofDim? dim = .ok c := mapError_eq_ok.1 hc
  have hdim := Hypercube.dim_of_ofDim? hcell
  unfold discontinuousDefinition at hd
  simp only [bind_eq_ok, mapError_eq_ok] at hd
  obtain ⟨fd, hfd, -, -, R₀, -, R₁, -, P, -, R, -, hd⟩ := hd
  cases hd
  obtain ⟨-, -, hfdim, -⟩ := DofLayout.wf_of_ofCounts? hfd
  refine ⟨_, s, hs, rfl, ⟨c, hcell⟩, by omega, ?_, by rw [hfdim, hdim]⟩
  rw [← hdim]
  rfl

/-- What the Raviart–Thomas family builds; its only degree is `0`. -/
theorem raviartThomas_eq_member {dim degree : Int} {e : Element}
    (h : raviartThomas dim degree = .ok e) :
    ∃ d s, Store.ofDefinition d = .ok s ∧ e = .member .raviartThomas s ∧
      (∃ c, Hypercube.ofDim? dim = .ok c) ∧ 0 ≤ degree ∧
      d.name = canonicalName "FE_RaviartThomas" dim degree.toNat ∧ d.layout.dim = dim := by
  unfold raviartThomas at h
  rw [ite_report_bind_eq_ok, ite_report_bind_eq_ok, bind_eq_ok] at h
  obtain ⟨hdeg, -, c, hc, h⟩ := h
  rw [bind_eq_ok] at h
  obtain ⟨fd, hfd, h⟩ := h
  rw [bind_eq_ok] at h
  obtain ⟨s, hs, h⟩ := h
  cases h
  have hcell : Hypercube.ofDim? dim = .ok c := mapError_eq_ok.1 hc
  have hzero : degree = 0 := by simpa using hdeg
  obtain ⟨-, -, hfdim, -⟩ := DofLayout.wf_of_ofCounts? (mapError_eq_ok.1 hfd)
  subst hzero
  refine ⟨_, s, hs, rfl, ⟨c, hcell⟩, le_rfl, ?_, hfdim⟩
  apply String.toList_injective
  simp [canonicalName, String.toList_append, toString_string]

/-- The family words are runs of word characters. -/
theorem families_word {family : String} (hf : family ∈ families) :
    family.toList ≠ [] ∧ ∀ ch ∈ family.toList, isWordChar ch = true := by
  simp only [families, List.mem_cons, List.not_mem_nil, or_false] at hf
  -- spelled out, each word is checked character by character
  rcases hf with rfl | rfl | rfl <;> simp <;> decide

/-- **A family member carries its canonical name**, with the dimension of its layout. -/
theorem member_name {family : String} (hf : family ∈ families) {dim degree : Int} {e : Element}
    (h : member family dim degree = .ok e) :
    (∃ c, Hypercube.ofDim? dim = .ok c) ∧ 0 ≤ degree ∧
      e.name = canonicalName family dim degree.toNat ∧ e.store.layout.dim = dim := by
  -- each family builds a member from a definition with its canonical name
  have hm : ∃ fam d s, Store.ofDefinition d = .ok s ∧ e = .member fam s ∧
      (∃ c, Hypercube.ofDim? dim = .ok c) ∧ 0 ≤ degree ∧
      d.name = canonicalName family dim degree.toNat ∧ d.layout.dim = dim := by
    simp only [families, List.mem_cons, List.not_mem_nil, or_false] at hf
    unfold member at h
    rcases hf with rfl | rfl | rfl
    · exact ⟨_, discontinuous_eq_member h⟩
    · exact ⟨_, continuous_eq_member h⟩
    · exact ⟨_, raviartThomas_eq_member h⟩
  obtain ⟨fam, d, s, hs, rfl, hc, hdeg, hname, hdim⟩ := hm
  obtain ⟨hsname, hlayout⟩ := ofDefinition_name hs
  exact ⟨hc, hdeg, by rw [name, Element.store, hsname, hname],
    by rw [Element.store, hlayout, hdim]⟩

end Members

/-- What reading a name that builds an element finds: the parts of the name, a known family and
a degree that fits a machine word, and the member they name in some dimension. -/
theorem ofName_eq_ok {s : String} {dim : Int} {e : Element} (h : ofName s dim = .ok e) :
    ∃ parts dim', ElementName.parse? s = some parts ∧ parts.family ∈ families ∧
      digitsValue parts.degreeDigits.toList ≤ maxDegree ∧
      member parts.family dim' (digitsValue parts.degreeDigits.toList) = .ok e := by
  unfold ofName at h
  cases hp : ElementName.parse? s with
  | none => simp [hp, report] at h
  | some parts =>
    simp only [hp] at h
    rw [ite_report_bind_eq_ok] at h
    obtain ⟨hfam, h⟩ := h
    -- the dimension is the one asked for, or the one in the name
    split at h
    · rw [ite_report_bind_eq_ok, pure_bind, ite_report_bind_eq_ok] at h
      exact ⟨parts, _, rfl, by simpa using hfam, not_lt.1 h.2.1, h.2.2⟩
    · rw [pure_bind, ite_report_bind_eq_ok] at h
      exact ⟨parts, _, rfl, by simpa using hfam, not_lt.1 h.1, h.2⟩

/-- Reading a name with a one-digit dimension, asked in dimension `0` or in its own. -/
theorem ofName_of_parse? {s : String} {parts : ElementName} {d : Nat}
    (hp : ElementName.parse? s = some parts) (hf : parts.family ∈ families)
    (hd : parts.dim = some d) (hdeg : digitsValue parts.degreeDigits.toList ≤ maxDegree)
    {dim : Int} (hdim : dim = 0 ∨ dim = d) :
    ofName s dim = member parts.family d (digitsValue parts.degreeDigits.toList) := by
  have hask : (dim != 0 && dim != (d : Int)) = false := by
    rcases hdim with rfl | rfl <;> simp
  simp [ofName, hp, hf, hd, hask, Nat.not_lt.2 hdeg, pure, Except.pure, bind, Except.bind]

/-- **Reading is a left inverse of naming on what the factory builds.** An element built from a
name has the name `family<d>(N)`, with `d` the dimension of its layout, and reading that name,
asked in dimension `0` or in `d`, builds the same element. -/
theorem ofName_name {s : String} {dim : Int} {e : Element} (h : ofName s dim = .ok e) :
    ∃ family ∈ families, ∃ N : Nat, e.name = canonicalName family e.store.layout.dim N ∧
      ofName e.name 0 = .ok e ∧ ofName e.name e.store.layout.dim = .ok e := by
  obtain ⟨parts, dim', -, hf, hdeg, hmember⟩ := ofName_eq_ok h
  obtain ⟨⟨c, hc⟩, -, hname, hlayout⟩ := member_name hf hmember
  have hdim : (c.dim : Int) = dim' := Hypercube.dim_of_ofDim? hc
  rw [Int.toNat_natCast] at hname
  obtain ⟨hne, hword⟩ := families_word hf
  have hc10 : c.dim < 10 := by cases c <;> decide
  -- the name read back: the same family, the layout's dimension and the same degree
  have hread : ElementName.parse? e.name =
      some ⟨parts.family, some c.dim, toString (digitsValue parts.degreeDigits.toList)⟩ := by
    rw [hname, ← hdim]
    exact parse?_canonicalName hne hword hc10 _
  have hvalue : digitsValue (toString (digitsValue parts.degreeDigits.toList)).toList =
      digitsValue parts.degreeDigits.toList := by
    rw [Nat.toString_eq_repr, Nat.toList_repr, digitsValue_toDigits]
  have hback (ask : Int) (hask : ask = 0 ∨ ask = c.dim) : ofName e.name ask = .ok e := by
    rw [ofName_of_parse? hread hf rfl (by rw [hvalue]; exact hdeg) hask]
    dsimp only
    rw [hvalue, hdim]
    exact hmember
  refine ⟨parts.family, hf, digitsValue parts.degreeDigits.toList, by rw [hname, hlayout],
    hback 0 (.inl rfl), ?_⟩
  rw [hlayout, ← hdim]
  exact hback _ (.inr rfl)

/-- The linear continuous element on the line, from a name with blanks, no dimension and a
leading zero in its degree. -/
def paddedLinear : Element := okValue (ofName " FE_Q ( 01 ) " 1)

theorem paddedLinear_name :
    ofName " FE_Q ( 01 ) " 1 = .ok paddedLinear ∧
      ∃ family ∈ families, ∃ N : Nat,
        paddedLinear.name = canonicalName family paddedLinear.store.layout.dim N ∧
        ofName paddedLinear.name 0 = .ok paddedLinear ∧
        ofName paddedLinear.name paddedLinear.store.layout.dim = .ok paddedLinear := by
  have h : ofName " FE_Q ( 01 ) " 1 = .ok paddedLinear := eq_ok_okValue (by decide)
  exact ⟨h, ofName_name h⟩

example : paddedLinear.name = "FE_Q<1>(1)" := by decide

end FiniteElements.Family
