import Crowfoot.Proofs.Schema.Names
import Crowfoot.Mermaid.Diagram

/-!
# Scanned diagrams

Blocks may be opened again and attributes defined again anywhere among the lines
of a diagram.  After every line the entities have different names, the columns of
each have different names, and no column has a reference yet.
-/

namespace Crowfoot.Mermaid

/-! ## Induction over the lines -/

section Induction

variable {P : Diagram → Prop}
  (hensure : ∀ diagram text name rest, readBlockStart? text = some (name, rest) →
    P diagram → P (diagram.ensureTable name))
  (hattribute : ∀ diagram name text, P diagram → P (diagram.addAttribute name text))
  (hrelationship : ∀ diagram text relationship, readRelationship? text = some relationship →
    P diagram → P (diagram.addRelationship relationship))

include hensure hattribute hrelationship

theorem step_induction {scan : Scan} (hscan : P scan.diagram) (text : List Char) :
    P (scan.step text).diagram := by
  rw [Scan.step]
  split
  · exact hattribute _ _ _ hscan
  · split
    · rename_i relationship hread
      exact hrelationship _ text relationship hread hscan
    · split
      · rename_i name rest hread
        exact hattribute _ _ _ (hensure _ text name rest hread hscan)
      · exact hscan

/-- What an empty diagram has and no line of any kind takes from a diagram, every
diagram that is read has. -/
theorem ofText?_induction (hempty : P {}) {text : List Char} {diagram : Diagram}
    (hread : Diagram.ofText? text = some diagram) : P diagram := by
  rw [Diagram.ofText?] at hread
  split at hread
  · cases hread
  · rename_i first rest _
    split at hread
    · obtain rfl := Option.some.inj hread
      exact List.foldlRecOn (motive := fun scan : Scan => P scan.diagram) rest _ hempty
        fun scan hscan line _ =>
          step_induction hensure hattribute hrelationship hscan line.text
    · cases hread

end Induction

/-! ## Names and columns -/

/-- A column as an attribute makes it; whether it may be missing depends on the
primary key alone. -/
structure IsAttributeColumn (column : Column) : Prop where
  nullability : column.nullability = if column.isPrimaryKey then .notNull else .unknown
  unreferenced : column.references = none

/-- Entities of different names whose attributes have different names. -/
structure IsScanned (diagram : Diagram) : Prop where
  distinctTables : (diagram.tables.map Table.name).Nodup
  distinctColumns : ∀ table ∈ diagram.tables, DistinctNames (table.columns.map Column.name)
  columns : ∀ table ∈ diagram.tables, ∀ column ∈ table.columns, IsAttributeColumn column

theorem toColumn_isAttributeColumn (entry : Attribute) : IsAttributeColumn entry.toColumn := by
  unfold Attribute.toColumn
  simp only
  split
  · exact ⟨rfl, rfl⟩
  · exact ⟨rfl, rfl⟩

theorem isScanned_empty : IsScanned {} :=
  ⟨List.nodup_nil, by simp, by simp⟩

variable {diagram : Diagram}

theorem ensureTable_isScanned (hscanned : IsScanned diagram) (name : String) :
    IsScanned (diagram.ensureTable name) := by
  rw [Diagram.ensureTable]
  split
  · exact hscanned
  · rename_i hnew
    have hnew : ∀ table ∈ diagram.tables, table.name ≠ name := by simpa using hnew
    refine ⟨?_, ?_, ?_⟩
    · rw [List.map_append]
      refine List.nodup_append.2 ⟨hscanned.distinctTables, by simp, ?_⟩
      intro first hfirst second hsecond
      obtain ⟨table, htable, rfl⟩ := List.mem_map.1 hfirst
      obtain rfl := List.mem_singleton.1 hsecond
      exact hnew table htable
    all_goals
      intro table hmem
      rcases List.mem_append.1 hmem with hold | hadded
    · exact hscanned.distinctColumns table hold
    · obtain rfl := List.mem_singleton.1 hadded
      exact List.Pairwise.nil
    · exact hscanned.columns table hold
    · obtain rfl := List.mem_singleton.1 hadded
      simp

theorem map_name_addAttribute (name : String) (text : List Char) :
    (diagram.addAttribute name text).tables.map Table.name = diagram.tables.map Table.name := by
  rw [Diagram.addAttribute]
  split
  · rfl
  · exact map_modifyFirst Table.name (by intro element; rfl) diagram.tables

/-- A table after an attribute is one from before, or one that got the attribute's column. -/
theorem mem_addAttribute {name : String} {text : List Char} {table : Table}
    (hmem : table ∈ (diagram.addAttribute name text).tables) :
    table ∈ diagram.tables ∨ ∃ entry, readAttribute? text = some entry ∧
      ∃ old ∈ diagram.tables, table = old.upsertColumn entry.toColumn := by
  rw [Diagram.addAttribute] at hmem
  split at hmem
  · exact .inl hmem
  · rename_i entry hread
    rcases mem_modifyFirst hmem with hold | ⟨old, hold, -, rfl⟩
    · exact .inl hold
    · exact .inr ⟨entry, hread, old, hold, rfl⟩

theorem addAttribute_isScanned (hscanned : IsScanned diagram) (name : String)
    (text : List Char) : IsScanned (diagram.addAttribute name text) where
  distinctTables := by
    rw [map_name_addAttribute]
    exact hscanned.distinctTables
  distinctColumns table hmem := by
    rcases mem_addAttribute hmem with hold | ⟨entry, -, old, hold, rfl⟩
    · exact hscanned.distinctColumns table hold
    · exact distinctNames_putFirst Column.name entry.toColumn
        (hscanned.distinctColumns old hold)
  columns table hmem column hcolumn := by
    rcases mem_addAttribute hmem with hold | ⟨entry, -, old, hold, rfl⟩
    · exact hscanned.columns table hold column hcolumn
    · rcases mem_putFirst hcolumn with rfl | hkept
      · exact toColumn_isAttributeColumn entry
      · exact hscanned.columns old hold column hkept

theorem addRelationship_isScanned (hscanned : IsScanned diagram)
    (relationship : Relationship) : IsScanned (diagram.addRelationship relationship) := by
  have hnamed := ensureTable_isScanned (ensureTable_isScanned hscanned relationship.left)
    relationship.right
  exact ⟨hnamed.distinctTables, hnamed.distinctColumns, hnamed.columns⟩

theorem ofText?_isScanned {text : List Char}
    (hread : Diagram.ofText? text = some diagram) : IsScanned diagram :=
  ofText?_induction (P := IsScanned)
    (fun _ _ name _ _ hscanned => ensureTable_isScanned hscanned name)
    (fun _ name text hscanned => addAttribute_isScanned hscanned name text)
    (fun _ _ relationship _ hscanned => addRelationship_isScanned hscanned relationship)
    isScanned_empty hread

end Crowfoot.Mermaid
