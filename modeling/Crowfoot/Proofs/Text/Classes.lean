import Crowfoot.Text.Blank
import Crowfoot.Text.Case
import Crowfoot.Text.Caseless
import Crowfoot.Text.Numeral
import Mathlib.Data.List.TakeWhile

/-!
# Character classes

How the classes of characters lie to each other: no letter is a blank or a
digit, a text of ASCII characters without small letters is its own upper case,
and the lower case of a line is a line.
-/

namespace Crowfoot.Text

/-- What is said of the characters of a text is decided for these only, and not for
all characters there are. -/
instance decidableForallMem {P : Char → Prop} [DecidablePred P] (text : List Char) :
    Decidable (∀ c ∈ text, P c) :=
  List.decidableBAll P text

/-- What holds of all ASCII characters, checked one by one. -/
theorem forall_ascii {P : Char → Prop} (hall : ∀ n, n < 128 → P (Char.ofNat n)) {c : Char}
    (hascii : c.toNat < 128) : P c := by
  have hc := hall c.toNat hascii
  rwa [Char.ofNat_toNat] at hc

theorem toLower_of_beyond {c : Char} (hbeyond : ¬c.toNat < 128) : c.toLower = c := by
  delta Char.toLower
  refine dif_neg fun hupper => hbeyond ?_
  have hlast : c.toNat ≤ 90 := UInt32.le_iff_toNat_le.1 hupper.2
  omega

/-- The characters with a small ASCII letter as their small form. -/
theorem eq_of_toLower {c small : Char} (hlower : c.toLower = small)
    (hsmall : small.toNat < 128) : c = small ∨ c = small.toUpper := by
  have hascii : c.toNat < 128 := by
    by_contra hbeyond
    rw [← hlower, toLower_of_beyond hbeyond] at hsmall
    exact hbeyond hsmall
  subst hlower
  exact forall_ascii (P := fun c => c = c.toLower ∨ c = c.toLower.toUpper) (by decide +kernel)
    hascii

/-- The code points of blanks. -/
def blankCodePoints : List Nat :=
  [9, 10, 11, 12, 13, 0x20, 0x85, 0xA0, 0x1680, 0x2000, 0x2001, 0x2002, 0x2003, 0x2004, 0x2005,
    0x2006, 0x2007, 0x2008, 0x2009, 0x200A, 0x2028, 0x2029, 0x202F, 0x205F, 0x3000]

theorem mem_blankCodePoints {c : Char} (hblank : isBlank c = true) :
    c.toNat ∈ blankCodePoints := by
  simp only [isBlank, Bool.or_eq_true, Bool.and_eq_true, decide_eq_true_eq, beq_iff_eq] at hblank
  simp only [blankCodePoints, List.mem_cons, List.not_mem_nil, or_false]
  omega

theorem isBlank_of_isAlphanumeric {c : Char} (hc : isAlphanumeric c = true) :
    isBlank c = false := by
  rw [← Bool.not_eq_true]
  intro hblank
  have hall : ∀ n ∈ blankCodePoints, isAlphanumeric (Char.ofNat n) = false := by decide +kernel
  have hnone := hall c.toNat (mem_blankCodePoints hblank)
  rw [Char.ofNat_toNat, hc] at hnone
  exact Bool.noConfusion hnone

theorem toNat_of_isDigit {c : Char} (hdigit : c.isDigit = true) :
    48 ≤ c.toNat ∧ c.toNat ≤ 57 := by
  simpa [Char.isDigit, UInt32.le_iff_toNat_le] using hdigit

theorem isLetter_of_isDigit {c : Char} (hdigit : c.isDigit = true) : isLetter c = false := by
  have hrange := toNat_of_isDigit hdigit
  have hascii : c.toNat < 128 := by omega
  rw [isLetter_ascii hascii]
  exact forall_ascii (P := fun c => c.isDigit = true → c.isAlpha = false) (by decide) hascii hdigit

theorem isAlphanumeric_of_isDigit {c : Char} (hdigit : c.isDigit = true) :
    isAlphanumeric c = true := by
  have hrange := toNat_of_isDigit hdigit
  rw [isAlphanumeric_ascii (by omega), Char.isAlphanum, hdigit, Bool.or_true]

theorem isBlank_of_mem_spaces {count : Nat} {c : Char} (hmem : c ∈ List.replicate count ' ') :
    isBlank c = true := by
  rw [List.eq_of_mem_replicate hmem]
  decide

/-- ASCII characters without small letters are their own upper case. -/
theorem upper_eq_self {text : List Char}
    (hupper : ∀ c ∈ text, c.toNat < 128 ∧ c.isLower = false) : upper text = text := by
  induction text with
  | nil => rfl
  | cons c rest ih =>
    obtain ⟨⟨hascii, hlower⟩, hrest⟩ := List.forall_mem_cons.1 hupper
    have hself : c.toUpper = c :=
      forall_ascii (P := fun c => c.isLower = false → c.toUpper = c) (by decide) hascii hlower
    rw [upper_cons, upperChar_ascii hascii, ih hrest, hself, List.singleton_append]

/-- Blanks have no upper case. -/
theorem upper_blanks {blanks : List Char} (hblanks : ∀ c ∈ blanks, isBlank c = true) :
    upper blanks = blanks := by
  have hall : ∀ n ∈ blankCodePoints, upperChar (Char.ofNat n) = [Char.ofNat n] := by
    decide +kernel
  induction blanks with
  | nil => rfl
  | cons c rest ih =>
    obtain ⟨hc, hrest⟩ := List.forall_mem_cons.1 hblanks
    have hself := hall c.toNat (mem_blankCodePoints hc)
    rw [Char.ofNat_toNat] at hself
    rw [upper_cons, hself, ih hrest, List.singleton_append]

/-- Characters whose lower case is that of ASCII have, as a text, the lower case in
which names are compared. -/
theorem lower_eq_foldCase_of_forall {text : List Char}
    (hplain : ∀ c ∈ text, lowerChar c = [c.toLower]) : lower text = foldCase text := by
  have hall (before : List Char) : lowerAfter before text = foldCase text := by
    induction text generalizing before with
    | nil => rfl
    | cons c rest ih =>
      obtain ⟨hc, hrest⟩ := List.forall_mem_cons.1 hplain
      have hsigma : c ≠ 'Σ' := by
        rintro rfl
        revert hc
        decide +kernel
      rw [lowerAfter, if_neg hsigma, hc, ih hrest]
      rfl
  exact hall []

theorem lower_eq_foldCase {text : List Char} (hascii : ∀ c ∈ text, c.toNat < 128) :
    lower text = foldCase text :=
  lower_eq_foldCase_of_forall fun c hc => by rw [lowerChar, if_pos (hascii c hc)]

theorem ofNat_ne_lineFeed {codePoint : Nat} (hother : codePoint ≠ 10) :
    Char.ofNat codePoint ≠ '\n' := by
  by_cases hvalid : codePoint.isValidChar
  · rw [Char.ofNat, dif_pos hvalid]
    exact fun heq => hother (congrArg Char.toNat heq)
  · rw [Char.ofNat, dif_neg hvalid]
    decide

/-- No character is turned into a line feed. -/
theorem lineFeed_notMem_lowerChar {c : Char} (hc : c ≠ '\n') : '\n' ∉ lowerChar c := by
  rw [lowerChar]
  split
  · rename_i hascii
    rw [List.mem_singleton]
    exact forall_ascii (P := fun c => c ≠ '\n' → '\n' ≠ c.toLower) (by decide) hascii hc
  · have hexpansions : ∀ expansion ∈ lowerExpansions, ∀ codePoint ∈ expansion.2,
        codePoint ≠ 10 := by decide
    have hruns : ∀ run ∈ lowerRuns, 10 < run.first + run.shift := by decide +kernel
    rw [convertCase]
    split
    · rename_i codePoints hlookup
      obtain ⟨before, after, hlist, -⟩ := List.lookup_eq_some_iff.1 hlookup
      rw [List.mem_map]
      rintro ⟨codePoint, hmem, heq⟩
      exact ofNat_ne_lineFeed (hexpansions (c.toNat, codePoints) (by simp [hlist]) codePoint hmem)
        heq
    · split
      · rename_i run hrun
        have hfirst : run.first ≤ c.toNat := by
          have hhas := List.find?_some hrun
          simp only [CaseRun.has, Bool.and_eq_true, decide_eq_true_eq] at hhas
          exact hhas.1.1
        have hshift := hruns run (List.mem_of_find?_eq_some hrun)
        rw [List.mem_singleton, CaseRun.counterpart]
        exact (ofNat_ne_lineFeed (by omega)).symm
      · rw [List.mem_singleton]
        exact hc.symm

/-- The lower case of a line is a line. -/
theorem lineFeed_notMem_lower {text : List Char} (htext : '\n' ∉ text) : '\n' ∉ lower text := by
  have hall (before : List Char) : '\n' ∉ lowerAfter before text := by
    induction text generalizing before with
    | nil => exact List.not_mem_nil
    | cons c rest ih =>
      obtain ⟨hc, hrest⟩ := not_or.1 (mt List.mem_cons.2 htext)
      rw [lowerAfter, List.mem_append, not_or]
      refine ⟨?_, ih hrest _⟩
      split
      · split <;> decide
      · exact lineFeed_notMem_lowerChar (Ne.symm hc)
  exact hall []

/-- ASCII names have the same lower case exactly when they agree up to case. -/
theorem lowerCase_eq_iff {left right : String} (hleft : ∀ c ∈ left.toList, c.toNat < 128)
    (hright : ∀ c ∈ right.toList, c.toNat < 128) :
    lowerCase left = lowerCase right ↔ sameName left right = true := by
  rw [sameName_iff, lowerCase, lowerCase, String.ofList_inj, lower_eq_foldCase hleft,
    lower_eq_foldCase hright]

end Crowfoot.Text
