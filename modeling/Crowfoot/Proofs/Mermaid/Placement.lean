import Crowfoot.Proofs.Mermaid.Diagram
import Crowfoot.Mermaid.Placement

/-!
# Placed foreign keys

A relationship line puts its key on a column that is there, or on a new one at
the end.  No line makes or unmakes a primary key, so the column that a reference
to an entity points at is the same whenever the line is read.
-/

namespace Crowfoot.Mermaid

/-- Every entity with the name of the column that references to it point at. -/
def keyNames (tables : List Table) : List (String × String) :=
  tables.map fun table => (table.name, (keyOf table).1)

theorem keyOf_fst (table : Table) :
    (keyOf table).1 = (table.primaryKey?.map Column.name).getD "id" := by
  rw [keyOf]
  split <;> rename_i hkey <;> rw [hkey] <;> rfl

/-- The name of the key depends on names and primary keys only. -/
theorem keyOf_fst_congr {left right : Table}
    (hsame : left.columns.map (fun column => (column.name, column.isPrimaryKey)) =
      right.columns.map fun column => (column.name, column.isPrimaryKey)) :
    (keyOf left).1 = (keyOf right).1 := by
  have hname (table : Table) : table.primaryKey?.map Column.name =
      ((table.columns.map fun column => (column.name, column.isPrimaryKey)).find? Prod.snd).map
        Prod.fst := by
    simp [Table.primaryKey?, List.find?_map, Function.comp_def]
  rw [keyOf_fst, keyOf_fst, hname, hname, hsame]

/-- A column that is no primary key does not become the key of a table. -/
theorem keyOf_fst_append {table : Table} {column : Column}
    (hplain : column.isPrimaryKey = false) :
    (keyOf { table with columns := table.columns ++ [column] }).1 = (keyOf table).1 := by
  rw [keyOf_fst, keyOf_fst]
  simp [Table.primaryKey?, List.find?_append, hplain]

/-- A key is placed on the column that suits it best, or on a new one, or not at
all if the name of the new one is taken. -/
theorem placeIn_cases (line : KeyLine) (key : String × String) (table : Table) :
    (∃ index, bestColumn? line key.1 table.columns = some index ∧
      placeIn line key table =
        { table with columns := table.columns.modify index (carryKey line key.1) }) ∨
    (bestColumn? line key.1 table.columns = none ∧
      (table.column? (addedName line.parent)).isSome = true ∧ placeIn line key table = table) ∨
    (bestColumn? line key.1 table.columns = none ∧
      table.column? (addedName line.parent) = none ∧
      placeIn line key table =
        { table with columns := table.columns ++
            [carryKey line key.1 { name := addedName line.parent, type := key.2 }] }) := by
  simp only [placeIn]
  split
  · rename_i index hbest
    exact Or.inl ⟨index, hbest, rfl⟩
  · rename_i hnone
    split
    · rename_i htaken
      exact Or.inr (Or.inl ⟨hnone, htaken, rfl⟩)
    · rename_i hfree
      exact Or.inr (Or.inr ⟨hnone, by simpa using hfree, rfl⟩)

/-- A view of the columns that a change keeps is the same after changing one. -/
theorem map_modify_of_keeps {α β : Type} (view : α → β) {change : α → α}
    (hkeep : ∀ element, view (change element) = view element) (index : Nat) (list : List α) :
    (list.modify index change).map view = list.map view := by
  apply List.ext_getElem?
  intro position
  rw [List.getElem?_map, List.getElem?_map, List.getElem?_modify]
  split <;> cases list[position]? <;> simp [hkeep]

@[simp] theorem carryKey_name (line : KeyLine) (keyName : String) (column : Column) :
    (carryKey line keyName column).name = column.name := rfl

theorem placeIn_name (line : KeyLine) (key : String × String) (table : Table) :
    (placeIn line key table).name = table.name := by
  rcases placeIn_cases line key table with ⟨_, _, heq⟩ | ⟨_, _, heq⟩ | ⟨_, _, heq⟩ <;> rw [heq]

theorem placeIn_keyOf (line : KeyLine) (key : String × String) (table : Table) :
    (keyOf (placeIn line key table)).1 = (keyOf table).1 := by
  rcases placeIn_cases line key table with ⟨_, _, heq⟩ | ⟨_, _, heq⟩ | ⟨_, _, heq⟩
  · rw [heq]
    exact keyOf_fst_congr (map_modify_of_keeps _ (by intro element; rfl) _ _)
  · rw [heq]
  · rw [heq]
    exact keyOf_fst_append rfl

theorem placeKey_keyNames (tables : List Table) (line : KeyLine) :
    keyNames (placeKey tables line) = keyNames tables := by
  rw [placeKey]
  split
  · rfl
  · apply map_modifyFirst
    intro table
    rw [placeIn_name, placeIn_keyOf]

/-- A column whose reference, if it has one, points at the key of an entity. -/
structure IsKeyedColumn (keys : List (String × String)) (column : Column) : Prop where
  nullability : column.nullability = if column.isPrimaryKey then .notNull else .unknown
  marked : column.references.isSome = true → column.isForeignKey = true
  resolved : ∀ reference ∈ column.references,
    (reference.table, reference.column) ∈ keys ∧ reference.cardinality.isSome = true

theorem IsAttributeColumn.isKeyedColumn {column : Column} (hcolumn : IsAttributeColumn column)
    (keys : List (String × String)) : IsKeyedColumn keys column :=
  ⟨hcolumn.nullability, by simp [hcolumn.unreferenced], by simp [hcolumn.unreferenced]⟩

theorem carryKey_isKeyedColumn {keys : List (String × String)} {column : Column} {line : KeyLine}
    {keyName : String} (hkey : (line.parent, keyName) ∈ keys)
    (hnullability : column.nullability = if column.isPrimaryKey then .notNull else .unknown) :
    IsKeyedColumn keys (carryKey line keyName column) := by
  refine ⟨hnullability, fun _ => rfl, ?_⟩
  rintro _ ⟨⟩
  exact ⟨hkey, rfl⟩

/-- Columns of different names, each of them keyed. -/
structure IsKeyedTable (keys : List (String × String)) (table : Table) : Prop where
  distinct : DistinctNames (table.columns.map Column.name)
  columns : ∀ column ∈ table.columns, IsKeyedColumn keys column

theorem placeIn_isKeyedTable {keys : List (String × String)} {table : Table} {line : KeyLine}
    {key : String × String} (htable : IsKeyedTable keys table)
    (hkey : (line.parent, key.1) ∈ keys) : IsKeyedTable keys (placeIn line key table) := by
  rcases placeIn_cases line key table with ⟨index, _, heq⟩ | ⟨_, _, heq⟩ | ⟨_, hfree, heq⟩
  · rw [heq]
    refine ⟨?_, ?_⟩
    · show DistinctNames ((table.columns.modify index (carryKey line key.1)).map Column.name)
      rw [map_modify_of_keeps Column.name (carryKey_name line key.1)]
      exact htable.distinct
    · intro column hmem
      obtain ⟨position, hposition⟩ := List.mem_iff_getElem?.1 hmem
      rw [List.getElem?_modify] at hposition
      obtain ⟨old, hold, rfl⟩ := Option.map_eq_some_iff.1 hposition
      have hcolumn := htable.columns old (List.mem_of_getElem? hold)
      split
      · exact carryKey_isKeyedColumn hkey hcolumn.nullability
      · exact hcolumn
  · rw [heq]
    exact htable
  · rw [heq]
    refine ⟨?_, ?_⟩
    · exact distinctNames_concat Column.name htable.distinct hfree
    · intro column hmem
      rcases List.mem_append.1 hmem with hold | hnew
      · exact htable.columns column hold
      · obtain rfl := List.mem_singleton.1 hnew
        exact carryKey_isKeyedColumn hkey rfl

/-- A table after a relationship line is one from before, or carries the key of a parent. -/
theorem mem_placeKey {tables : List Table} {line : KeyLine} {table : Table}
    (hmem : table ∈ placeKey tables line) :
    table ∈ tables ∨ ∃ parent ∈ tables, parent.name = line.parent ∧
      ∃ old ∈ tables, table = placeIn line (keyOf parent) old := by
  rw [placeKey] at hmem
  split at hmem
  · exact .inl hmem
  · rename_i parent hparent
    have hname : parent.name = line.parent := by simpa using List.find?_some hparent
    rcases mem_modifyFirst hmem with hold | ⟨old, hold, -, rfl⟩
    · exact .inl hold
    · exact .inr ⟨parent, List.mem_of_find?_eq_some hparent, hname, old, hold, rfl⟩

/-- What a table keeps when it gets the key of another that has it, all tables keep. -/
theorem forall_mem_foldl_placeKey {P : Table → Prop}
    (hplace : ∀ line parent table, P parent → parent.name = line.parent → P table →
      P (placeIn line (keyOf parent) table))
    {tables : List Table} (htables : ∀ table ∈ tables, P table) (lines : List KeyLine) :
    ∀ table ∈ lines.foldl placeKey tables, P table := by
  refine List.foldlRecOn (motive := fun placed : List Table => ∀ table ∈ placed, P table)
    lines placeKey htables fun placed hplaced line _ table hmem => ?_
  rcases mem_placeKey hmem with hold | ⟨parent, hparent, hname, old, hold, rfl⟩
  · exact hplaced table hold
  · exact hplace line parent old (hplaced parent hparent) hname (hplaced old hold)

/-- One relationship line keeps all tables keyed. -/
theorem placeKey_isKeyedTable {keys : List (String × String)} {tables : List Table}
    (hkeys : keyNames tables = keys) (htables : ∀ table ∈ tables, IsKeyedTable keys table)
    (line : KeyLine) : ∀ table ∈ placeKey tables line, IsKeyedTable keys table := by
  intro table hmem
  rcases mem_placeKey hmem with hold | ⟨parent, hparent, hname, old, hold, rfl⟩
  · exact htables table hold
  · have hkey : (line.parent, (keyOf parent).1) ∈ keys := by
      rw [← hkeys, ← hname]
      exact List.mem_map_of_mem (f := fun table : Table => (table.name, (keyOf table).1)) hparent
    exact placeIn_isKeyedTable (htables old hold) hkey

/-- All relationship lines together keep all tables keyed. -/
theorem foldl_placeKey_isKeyedTable {tables : List Table} (lines : List KeyLine)
    (htables : ∀ table ∈ tables, IsKeyedTable (keyNames tables) table) :
    keyNames (lines.foldl placeKey tables) = keyNames tables ∧
      ∀ table ∈ lines.foldl placeKey tables, IsKeyedTable (keyNames tables) table := by
  refine List.foldlRecOn (motive := fun placed => keyNames placed = keyNames tables ∧
    ∀ table ∈ placed, IsKeyedTable (keyNames tables) table) lines placeKey ⟨rfl, htables⟩ ?_
  rintro placed ⟨hkeys, hplaced⟩ line _
  exact ⟨(placeKey_keyNames placed line).trans hkeys, placeKey_isKeyedTable hkeys hplaced line⟩

end Crowfoot.Mermaid
