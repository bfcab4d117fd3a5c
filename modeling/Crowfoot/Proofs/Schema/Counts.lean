import Crowfoot.Schema.Basic
import Mathlib.Algebra.GroupWithZero.Nat
import Mathlib.Algebra.Order.BigOperators.Group.List
import Mathlib.Algebra.Order.Group.Nat
import Mathlib.Data.List.Forall2

/-!
# Counts of relationships

A schema has as many relationships as it has columns with a reference, so that
they can be counted table by table.
-/

namespace Crowfoot

/-- What is related as a member of one list to a member of another is related further. -/
theorem forall₂_imp_of_mem {α β : Type} {R S : α → β → Prop} {lefts : List α} {rights : List β}
    (hlists : List.Forall₂ R lefts rights)
    (himp : ∀ left ∈ lefts, ∀ right ∈ rights, R left right → S left right) :
    List.Forall₂ S lefts rights := by
  obtain ⟨hlength, hzip⟩ := List.forall₂_iff_zip.1 hlists
  refine List.forall₂_iff_zip.2 ⟨hlength, fun {left right} hpair => ?_⟩
  obtain ⟨hleft, hright⟩ := List.of_mem_zip hpair
  exact himp left hleft right hright (hzip hpair)

/-- What is in one of two related lists is related to something in the other. -/
theorem exists_of_forall₂ {α β : Type} {R : α → β → Prop} {lefts : List α} {rights : List β}
    (hrel : List.Forall₂ R lefts rights) {left : α} (hmem : left ∈ lefts) :
    ∃ right ∈ rights, R left right := by
  induction hrel with
  | nil => cases hmem
  | cons hfirst _ ih =>
    rcases List.mem_cons.1 hmem with rfl | hrest
    · exact ⟨_, List.mem_cons_self, hfirst⟩
    · obtain ⟨right, hright, hrel⟩ := ih hrest
      exact ⟨right, List.mem_cons_of_mem _ hright, hrel⟩

theorem map_eq_of_forall₂ {α β γ : Type} {left : α → γ} {right : β → γ} {lefts : List α}
    {rights : List β}
    (hlists : List.Forall₂ (fun first second => left first = right second) lefts rights) :
    lefts.map left = rights.map right := by
  rwa [← List.forall₂_eq_eq_eq, List.forall₂_map_left_iff, List.forall₂_map_right_iff]

/-- Steps that do the same for related elements come to the same over related lists. -/
theorem foldl_eq_of_forall₂ {α β γ : Type} {R : α → β → Prop} {left : γ → α → γ}
    {right : γ → β → γ} {lefts : List α} {rights : List β} (hlists : List.Forall₂ R lefts rights)
    (hstep : ∀ state first second, R first second → left state first = right state second)
    (state : γ) : lefts.foldl left state = rights.foldl right state := by
  induction hlists generalizing state with
  | nil => rfl
  | cons hfirst _ ih => rw [List.foldl_cons, List.foldl_cons, hstep state _ _ hfirst, ih]

/-- The number of columns with a reference. -/
def Table.keyCount (table : Table) : Nat :=
  table.columns.countP fun column => column.references.isSome

theorem length_foreignKeys (table : Table) : table.foreignKeys.length = table.keyCount := by
  rw [Table.foreignKeys, List.length_filterMap_eq_countP, Table.keyCount]
  congr 1
  funext column
  exact Option.isSome_map

theorem relationshipCount_eq_sum (schema : Schema) :
    schema.relationshipCount = (schema.tables.map Table.keyCount).sum := by
  rw [Schema.relationshipCount, List.length_flatMap]
  simp only [length_foreignKeys]

/-- Tables with the same names and as many references each have the same names and
as many references together. -/
theorem counts_eq_of_forall₂ {left right : Schema}
    (htables : List.Forall₂ (fun first second : Table => first.name = second.name ∧
      first.keyCount = second.keyCount) left.tables right.tables) :
    left.tables.map Table.name = right.tables.map Table.name ∧
      left.relationshipCount = right.relationshipCount := by
  have hcounts := map_eq_of_forall₂ (htables.imp fun _ _ htable => htable.2)
  rw [relationshipCount_eq_sum, relationshipCount_eq_sum, hcounts]
  exact ⟨map_eq_of_forall₂ (htables.imp fun _ _ htable => htable.1), rfl⟩

theorem relationshipCount_le_of_forall₂ {left right : Schema}
    (htables : List.Forall₂ (fun first second : Table => first.keyCount ≤ second.keyCount)
      left.tables right.tables) :
    left.relationshipCount ≤ right.relationshipCount := by
  rw [relationshipCount_eq_sum, relationshipCount_eq_sum]
  apply List.Forall₂.sum_le_sum
  rwa [List.forall₂_map_left_iff, List.forall₂_map_right_iff]

end Crowfoot
