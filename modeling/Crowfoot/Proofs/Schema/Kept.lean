import Crowfoot.Schema.Table

/-!
# Kept columns

What places foreign keys and links may give a column a reference.  It keeps all else
of the column, and the table that a reference led to before.
-/

namespace Crowfoot

/-- The column is the same but for its reference, and leads where it led before. -/
structure KeepsColumn (before after : Column) : Prop where
  data : after.clearReference = before.clearReference
  target : ∀ reference ∈ before.references, ∃ kept ∈ after.references,
    kept.table = reference.table

theorem KeepsColumn.refl (column : Column) : KeepsColumn column column :=
  ⟨rfl, fun reference hreference => ⟨reference, hreference, rfl⟩⟩

theorem KeepsColumn.trans {first second third : Column} (hleft : KeepsColumn first second)
    (hright : KeepsColumn second third) : KeepsColumn first third := by
  refine ⟨hright.data.trans hleft.data, fun reference hreference => ?_⟩
  obtain ⟨kept, hkept, hsame⟩ := hleft.target reference hreference
  obtain ⟨last, hlast, hagain⟩ := hright.target kept hkept
  exact ⟨last, hlast, hagain.trans hsame⟩

theorem KeepsColumn.name {before after : Column} (hkeeps : KeepsColumn before after) :
    after.name = before.name := by
  have hname := congrArg Column.name hkeeps.data
  exact hname

end Crowfoot
