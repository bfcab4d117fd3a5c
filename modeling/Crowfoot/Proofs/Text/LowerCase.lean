import Crowfoot.Proofs.Text.UpperCase

/-!
# Lower case

The lower case of a text consists of small characters: each is its own lower case.
So a name that agrees with a text in lower case up to ASCII case has that text as
its lower case.
-/

namespace Crowfoot.Text

/-- The character is its own lower case. -/
def IsSmall (c : Char) : Prop :=
  lowerChar c = [c]

instance (c : Char) : Decidable (IsSmall c) :=
  inferInstanceAs (Decidable (_ = _))

/-! ## Images of runs -/

/-- The numbers as the bits of one number, in which membership is decided at once. -/
def bitsOf (numbers : List Nat) : Nat :=
  numbers.foldr (fun number bits => 1 <<< number ||| bits) 0

theorem testBit_bitsOf {numbers : List Nat} {number : Nat} (hmem : number ∈ numbers) :
    (bitsOf numbers).testBit number = true := by
  induction numbers with
  | nil => cases hmem
  | cons first rest ih =>
    rw [bitsOf, List.foldr_cons, Nat.testBit_or, Bool.or_eq_true]
    rcases List.mem_cons.1 hmem with rfl | hrest
    · simp
    · exact Or.inr (ih hrest)

/-- The code points beyond ASCII that are not their own lower case. -/
def capitals : List Nat :=
  lowerExpansions.map Prod.fst ++ lowerRuns.flatMap CaseRun.members

/-- The lower case of a code point that a run holds is none of the capitals. -/
theorem testBit_image : ∀ run ∈ lowerRuns, ∀ codePoint ∈ run.members,
    (bitsOf capitals).testBit (run.image codePoint) = false := by
  decide +kernel

theorem lowerChar_of_notMem {c : Char} (hbeyond : ¬c.toNat < 128) (hmem : c.toNat ∉ capitals) :
    lowerChar c = [c] := by
  obtain ⟨hexpansion, hruns⟩ := not_or.1 (mt List.mem_append.2 hmem)
  have hlookup : lowerExpansions.lookup c.toNat = none := by
    rw [List.lookup_eq_none_iff]
    intro expansion hin
    rw [bne_iff_ne]
    rintro heq
    exact hexpansion (heq ▸ List.mem_map_of_mem hin)
  have hfind : lowerRuns.find? (·.has c.toNat) = none := by
    rw [List.find?_eq_none]
    intro run hrun hhas
    exact hruns (List.mem_flatMap.2 ⟨run, hrun, CaseRun.mem_members hhas⟩)
  rw [lowerChar, if_neg hbeyond, convertCase, hlookup]
  simp only [hfind]

/-- Counterparts are characters, and small letters if they are in ASCII. -/
theorem image_lowerRuns : ∀ run ∈ lowerRuns,
    (0x61 ≤ run.image run.first ∧ run.image run.last ≤ 0x7A ∨ 0x80 ≤ run.image run.first) ∧
      (run.image run.last < 0xD800 ∨
        0xDFFF < run.image run.first ∧ run.image run.last < 0x110000) := by
  decide +kernel

/-- The lower case of a code point that a run holds is small. -/
theorem isSmall_counterpart {run : CaseRun} (hrun : run ∈ lowerRuns) {codePoint : Nat}
    (hhas : run.has codePoint = true) : IsSmall (run.counterpart codePoint) := by
  have himage := CaseRun.image_mem_Icc hhas
  obtain ⟨hletter, hrange⟩ := image_lowerRuns run hrun
  have hvalid : (run.image codePoint).isValidChar := by
    rw [Nat.isValidChar]
    omega
  rw [CaseRun.counterpart, ← CaseRun.image]
  by_cases hascii : run.image codePoint < 128
  · have hsmall : ∀ n < 0x7B, 0x61 ≤ n → IsSmall (Char.ofNat n) := by decide
    exact hsmall _ (by omega) (by omega)
  · rw [← toNat_ofNat hvalid] at hascii
    refine lowerChar_of_notMem hascii fun hmem => ?_
    have hbit := testBit_bitsOf hmem
    rw [toNat_ofNat hvalid, testBit_image run hrun codePoint (CaseRun.mem_members hhas)] at hbit
    cases hbit

/-! ## Characters and texts -/

theorem isSmall_of_mem_lowerChar {c small : Char} (hmem : small ∈ lowerChar c) :
    IsSmall small := by
  rw [lowerChar] at hmem
  split at hmem
  · rename_i hascii
    obtain rfl := List.mem_singleton.1 hmem
    exact forall_ascii (P := fun c => IsSmall c.toLower) (by decide +kernel) hascii
  · rename_i hbeyond
    have hself : convertCase lowerRuns lowerExpansions c = lowerChar c := (if_neg hbeyond).symm
    rw [convertCase] at hmem hself
    split at hmem
    · rename_i codePoints hlookup
      have hexpansions : ∀ expansion ∈ lowerExpansions, ∀ codePoint ∈ expansion.2,
          IsSmall (Char.ofNat codePoint) := by decide +kernel
      obtain ⟨before, after, hlist, -⟩ := List.lookup_eq_some_iff.1 hlookup
      obtain ⟨codePoint, hcode, rfl⟩ := List.mem_map.1 hmem
      exact hexpansions (c.toNat, codePoints) (by simp [hlist]) codePoint hcode
    · rename_i hlookup
      split at hmem
      · rename_i run hrun
        obtain rfl := List.mem_singleton.1 hmem
        have hhas := List.find?_some hrun
        exact isSmall_counterpart (List.mem_of_find?_eq_some hrun) hhas
      · rename_i hfind
        obtain rfl := List.mem_singleton.1 hmem
        simp only [hlookup, hfind] at hself
        exact hself.symm

theorem isSmall_of_mem_lower {text : List Char} {small : Char} (hmem : small ∈ lower text) :
    IsSmall small := by
  rw [lower] at hmem
  generalize [] = before at hmem
  induction text generalizing before with
  | nil => cases hmem
  | cons c rest ih =>
    rw [lowerAfter, List.mem_append] at hmem
    rcases hmem with hfirst | hrest
    · split at hfirst
      · obtain rfl := List.mem_singleton.1 hfirst
        split <;> decide +kernel
      · exact isSmall_of_mem_lowerChar hfirst
    · exact ih _ hrest

theorem toLower_of_isSmall {c : Char} (hsmall : IsSmall c) : c.toLower = c := by
  by_cases hascii : c.toNat < 128
  · rw [IsSmall, lowerChar, if_pos hascii] at hsmall
    exact List.singleton_inj.1 hsmall
  · exact toLower_of_beyond hascii

/-- A text that agrees with small characters up to ASCII case has them as its lower
case. -/
theorem lower_eq_of_sameText {text small : List Char} (hsmall : ∀ c ∈ small, IsSmall c)
    (hsame : sameText text small = true) : lower text = small := by
  have hself : foldCase small = small :=
    (List.map_congr_left fun c hc => toLower_of_isSmall (hsmall c hc)).trans (List.map_id small)
  have hfold : foldCase text = small := (sameText_iff.1 hsame).trans hself
  rw [← hfold]
  apply lower_eq_foldCase_of_forall
  intro c hc
  by_cases hascii : c.toNat < 128
  · rw [lowerChar, if_pos hascii]
  · have hin : IsSmall c.toLower := hsmall _ (hfold ▸ List.mem_map_of_mem hc)
    rw [toLower_of_beyond hascii] at hin ⊢
    exact hin

end Crowfoot.Text
