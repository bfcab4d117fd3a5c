/-!
# Comparison without ASCII case

Names, keywords of the outer syntax and file headers are compared after mapping the letters `A` to
`Z` to small ones; every other character stands for itself.
-/

namespace Crowfoot.Text

/-- The text with ASCII capitals made small. -/
def foldCase (text : List Char) : List Char :=
  text.map Char.toLower

/-- Equality of texts up to ASCII case. -/
def sameText (left right : List Char) : Bool :=
  foldCase left == foldCase right

/-- Equality of names up to ASCII case. -/
def sameName (left right : String) : Bool :=
  sameText left.toList right.toList

theorem sameText_iff {left right : List Char} :
    sameText left right = true ↔ foldCase left = foldCase right := by
  simp [sameText]

theorem sameName_iff {left right : String} :
    sameName left right = true ↔ foldCase left.toList = foldCase right.toList := by
  simp [sameName, sameText]

@[simp] theorem sameName_refl (name : String) : sameName name name = true := by
  simp [sameName_iff]

theorem sameName_comm (left right : String) : sameName left right = sameName right left := by
  rw [Bool.eq_iff_iff, sameName_iff, sameName_iff]
  exact eq_comm

theorem sameName_trans {first second third : String} (hleft : sameName first second = true)
    (hright : sameName second third = true) : sameName first third = true := by
  rw [sameName_iff] at *
  exact hleft.trans hright

/-- Names equal up to case agree with the same names. -/
theorem sameName_congr {first second : String} (hsame : sameName first second = true)
    (other : String) : sameName first other = sameName second other := by
  rw [Bool.eq_iff_iff, sameName_iff, sameName_iff, sameName_iff.1 hsame]

theorem sameName_congr_right {first second : String} (hsame : sameName first second = true)
    (other : String) : sameName other first = sameName other second := by
  rw [sameName_comm, sameName_congr hsame, sameName_comm]

end Crowfoot.Text
