import Crowfoot.Proofs.Text.Classes

/-!
# Upper case

Every character is its own upper case, or its upper case starts with a letter.  So
the upper case of a word starts like a word, and no character is turned into a mark
unless it is one.
-/

namespace Crowfoot.Text

/-! ## Images of runs -/

/-- The code points of the run. -/
def CaseRun.members (run : CaseRun) : List Nat :=
  List.range' run.first ((run.last - run.first) / run.stride + 1) run.stride

/-- The code point of the counterpart. -/
def CaseRun.image (run : CaseRun) (codePoint : Nat) : Nat :=
  (codePoint + run.shift).toNat

theorem CaseRun.has_iff {run : CaseRun} {codePoint : Nat} :
    run.has codePoint = true ↔
      (run.first ≤ codePoint ∧ codePoint ≤ run.last) ∧
        (codePoint - run.first) % run.stride = 0 := by
  simp [CaseRun.has]

theorem CaseRun.mem_members {run : CaseRun} {codePoint : Nat}
    (hhas : run.has codePoint = true) : codePoint ∈ run.members := by
  obtain ⟨⟨hfirst, hlast⟩, hstep⟩ := CaseRun.has_iff.1 hhas
  have hcount := Nat.div_add_mod (codePoint - run.first) run.stride
  have hle : (codePoint - run.first) / run.stride ≤ (run.last - run.first) / run.stride :=
    Nat.div_le_div_right (by omega)
  refine List.mem_range'.2 ⟨(codePoint - run.first) / run.stride, Nat.lt_succ_of_le hle, ?_⟩
  omega

theorem CaseRun.image_mem_Icc {run : CaseRun} {codePoint : Nat}
    (hhas : run.has codePoint = true) :
    run.image run.first ≤ run.image codePoint ∧ run.image codePoint ≤ run.image run.last := by
  have hrange := (CaseRun.has_iff.1 hhas).1
  simp only [CaseRun.image]
  omega

theorem toNat_ofNat {codePoint : Nat} (hvalid : codePoint.isValidChar) :
    (Char.ofNat codePoint).toNat = codePoint := by
  rw [Char.ofNat, dif_pos hvalid]
  rfl

/-- All counterparts of the run are letters: one interval holds them, or each is one. -/
def CaseRun.givesLetters (run : CaseRun) : Bool :=
  (((0x41, 0x5A) :: letterIntervals).any fun interval =>
      interval.1 ≤ run.image run.first && run.image run.last ≤ interval.2) ||
    run.members.all fun codePoint => letterIntervals.has (run.image codePoint)

theorem givesLetters_upperRuns : ∀ run ∈ upperRuns, run.givesLetters = true := by
  decide +kernel

/-- The intervals of letters hold code points of characters only. -/
theorem isValidChar_letterIntervals : ∀ interval ∈ letterIntervals,
    0x80 ≤ interval.1 ∧ (interval.2 < 0xD800 ∨ 0xDFFF < interval.1 ∧ interval.2 < 0x110000) := by
  decide +kernel

theorem isLetter_ofNat {codePoint : Nat} (hhas : letterIntervals.has codePoint = true) :
    isLetter (Char.ofNat codePoint) = true := by
  obtain ⟨interval, hinterval, hlow, hhigh⟩ := Intervals.has_iff.1 hhas
  obtain ⟨hfirst, hrange⟩ := isValidChar_letterIntervals interval hinterval
  have hvalid : codePoint.isValidChar := by
    rw [Nat.isValidChar]
    omega
  rw [isLetter, toNat_ofNat hvalid, if_neg (by omega), hhas]

/-- The upper case of a code point that a run holds is a letter. -/
theorem isLetter_counterpart {run : CaseRun} (hrun : run ∈ upperRuns) {codePoint : Nat}
    (hhas : run.has codePoint = true) : isLetter (run.counterpart codePoint) = true := by
  have hrange := CaseRun.image_mem_Icc hhas
  have hletters := givesLetters_upperRuns run hrun
  simp only [CaseRun.givesLetters, Bool.or_eq_true, List.any_eq_true, List.all_eq_true,
    Bool.and_eq_true, decide_eq_true_eq, List.mem_cons] at hletters
  rw [CaseRun.counterpart, ← CaseRun.image]
  rcases hletters with ⟨interval, hinterval, hlow, hhigh⟩ | hall
  · have hbetween : interval.1 ≤ run.image codePoint ∧ run.image codePoint ≤ interval.2 := by
      omega
    rcases hinterval with rfl | hinterval
    · have hascii : ∀ n < 0x5B, 0x41 ≤ n → isLetter (Char.ofNat n) = true := by decide
      exact hascii _ (Nat.lt_succ_of_le hbetween.2) hbetween.1
    · exact isLetter_ofNat (Intervals.has_iff.2 ⟨interval, hinterval, hbetween⟩)
  · exact isLetter_ofNat (hall codePoint (CaseRun.mem_members hhas))

/-! ## Characters -/

/-- Upper case is that of ASCII, the character itself, one letter or an expansion. -/
theorem upperChar_cases (c : Char) :
    (c.toNat < 128 ∧ upperChar c = [c.toUpper]) ∨ upperChar c = [c] ∨
      (∃ letter, isLetter letter = true ∧ upperChar c = [letter]) ∨
      ∃ expansion ∈ upperExpansions, upperChar c = expansion.2.map Char.ofNat := by
  by_cases hascii : c.toNat < 128
  · exact Or.inl ⟨hascii, upperChar_ascii hascii⟩
  · rw [upperChar, if_neg hascii, convertCase]
    split
    · rename_i codePoints hlookup
      obtain ⟨before, after, hlist, -⟩ := List.lookup_eq_some_iff.1 hlookup
      exact Or.inr (Or.inr (Or.inr ⟨(c.toNat, codePoints), by simp [hlist], rfl⟩))
    · split
      · rename_i run hrun
        have hhas := List.find?_some hrun
        exact Or.inr (Or.inr (Or.inl
          ⟨_, isLetter_counterpart (List.mem_of_find?_eq_some hrun) hhas, rfl⟩))
      · exact Or.inr (Or.inl rfl)

/-- The upper case of a letter or a numeral starts with one. -/
theorem exists_upperChar {c : Char} (hc : isAlphanumeric c = true) :
    ∃ first rest, upperChar c = first :: rest ∧ isAlphanumeric first = true := by
  rcases upperChar_cases c with ⟨hascii, heq⟩ | heq | ⟨letter, hletter, heq⟩ | ⟨expansion, hmem, heq⟩
  · rw [isAlphanumeric_ascii hascii] at hc
    have hupper : c.toUpper.toNat < 128 ∧ c.toUpper.isAlphanum = true :=
      forall_ascii (P := fun c => c.isAlphanum = true →
        c.toUpper.toNat < 128 ∧ c.toUpper.isAlphanum = true) (by decide) hascii hc
    exact ⟨c.toUpper, [], heq, (isAlphanumeric_ascii hupper.1).trans hupper.2⟩
  · exact ⟨c, [], heq, hc⟩
  · exact ⟨letter, [], heq, isAlphanumeric_of_isLetter hletter⟩
  · have hall : ∀ expansion ∈ upperExpansions,
        (expansion.2.head?.any fun codePoint => isLetter (Char.ofNat codePoint)) = true := by
      decide +kernel
    have hfirst := hall expansion hmem
    cases hcodes : expansion.2 with
    | nil => simp [hcodes] at hfirst
    | cons first rest =>
      rw [hcodes] at hfirst heq
      exact ⟨Char.ofNat first, _, heq, isAlphanumeric_of_isLetter hfirst⟩

/-- An ASCII mark is the upper case of itself alone. -/
theorem eq_of_mem_upperChar {mark c : Char} (hascii : mark.toNat < 128)
    (hmark : isAlphanumeric mark = false) (hmem : mark ∈ upperChar c) : c = mark := by
  rcases upperChar_cases c with ⟨hc, heq⟩ | heq | ⟨letter, hletter, heq⟩ | ⟨expansion, hin, heq⟩
  · rw [heq, List.mem_singleton] at hmem
    have hsame := forall_ascii (P := fun c => c.toUpper.isAlphanum = false → c.toUpper = c)
      (by decide) hc
    rw [isAlphanumeric_ascii hascii, hmem] at hmark
    exact (hsame hmark).symm.trans hmem.symm
  · rw [heq, List.mem_singleton] at hmem
    exact hmem.symm
  · rw [heq, List.mem_singleton] at hmem
    rw [hmem, isAlphanumeric_of_isLetter hletter] at hmark
    cases hmark
  · have hall : ∀ expansion ∈ upperExpansions, ∀ codePoint ∈ expansion.2,
        isAlphanumeric (Char.ofNat codePoint) = true ∨ 128 ≤ (Char.ofNat codePoint).toNat := by
      decide +kernel
    rw [heq] at hmem
    obtain ⟨codePoint, hcode, rfl⟩ := List.mem_map.1 hmem
    rcases hall expansion hin codePoint hcode with hword | hbeyond
    · rw [hword] at hmark
      cases hmark
    · omega

theorem mem_of_mem_upper {mark : Char} {text : List Char} (hascii : mark.toNat < 128)
    (hmark : isAlphanumeric mark = false) (hmem : mark ∈ upper text) : mark ∈ text := by
  obtain ⟨c, hc, hin⟩ := List.mem_flatMap.1 hmem
  exact eq_of_mem_upperChar hascii hmark hin ▸ hc

end Crowfoot.Text
