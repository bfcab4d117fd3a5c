import Crowfoot.Proofs.Mermaid.WellPlaced
import Crowfoot.Proofs.Mermaid.WritableNames
import Crowfoot.Proofs.Sql.Unresolved

/-!
# Diagrams as scripts

The schema of a diagram is written as SQL and read again with the same tables in the
same order, if their names differ in more than case.  A relationship leads to the
primary key of its parent, or to a column `id` that the parent need not have: the
script keeps those that lead somewhere.  An entity without columns is written with a
column `id`, so that what refers to it is kept.
-/

namespace Crowfoot

/-! ## Entities without columns -/

/-- The table as it is written, with a column if it has none. -/
def Table.anchored (table : Table) : Table :=
  if table.columns.isEmpty then
    { table with columns := [{ name := "id", type := "INT" }] }
  else
    table

theorem Table.anchored_of_ne_nil {table : Table} (hsome : table.columns ≠ []) :
    table.anchored = table := by
  rw [anchored, if_neg (by simpa using hsome)]

theorem Table.anchored_of_eq_nil {table : Table} (hnone : table.columns = []) :
    table.anchored = { table with columns := [{ name := "id", type := "INT" }] } := by
  rw [anchored, if_pos (by simpa using hnone)]

theorem Table.anchored_name (table : Table) : table.anchored.name = table.name := by
  rw [anchored]
  split <;> rfl

theorem Table.anchored_isView (table : Table) : table.anchored.isView = table.isView := by
  rw [anchored]
  split <;> rfl

/-- What holds of the columns of a table and of the one that is added holds of the
columns that are written. -/
theorem Table.forall_mem_anchored {P : Column → Prop} {table : Table}
    (hcolumns : ∀ column ∈ table.columns, P column) (hadded : P { name := "id", type := "INT" }) :
    ∀ column ∈ table.anchored.columns, P column := by
  by_cases hnone : table.columns = []
  · rw [anchored_of_eq_nil hnone]
    exact List.forall_mem_singleton.2 hadded
  · rw [anchored_of_ne_nil hnone]
    exact hcolumns

/-- The schema as it is written. -/
def Schema.anchored (schema : Schema) : Schema :=
  { schema with tables := schema.tables.map Table.anchored }

theorem tableText_anchored (table : Table) :
    Sql.tableText table.anchored = Sql.tableText table := by
  by_cases hnone : table.columns = []
  · have hwritten : Sql.columnText (Text.widest [Sql.quoteName "id"])
        { name := "id", type := "INT" } = "    id INT" := by decide +kernel
    have hadded : Sql.definedColumns { table with columns := [{ name := "id", type := "INT" }] } =
        [{ name := "id", type := "INT" }] := rfl
    have hempty : Sql.definedColumns table = [] := by
      rw [Sql.definedColumns, hnone]
      rfl
    rw [Table.anchored_of_eq_nil hnone, Sql.tableText, Sql.tableText, hadded, hempty]
    simp only [List.isEmpty_cons, List.isEmpty_nil, List.map_cons, List.map_nil, hwritten]
    rfl
  · rw [Table.anchored_of_ne_nil hnone]

/-- The columns that are added to base tables are written anyway. -/
theorem schemaText_anchored {schema : Schema}
    (hbases : ∀ table ∈ schema.tables, table.isView = false) :
    Sql.schemaText schema.anchored = Sql.schemaText schema := by
  have hall : (schema.tables.filter fun table => !table.isView) = schema.tables :=
    List.filter_eq_self.2 fun table hmem => by simp [hbases table hmem]
  have hnone : schema.tables.filter Table.isView = [] :=
    List.filter_eq_nil_iff.2 fun table hmem => by simp [hbases table hmem]
  rw [Sql.schemaText, Sql.schemaText, Schema.anchored, List.filter_map, List.filter_map]
  simp only [Function.comp_def, Table.anchored_isView, hall, hnone, List.map_map,
    tableText_anchored, List.isEmpty_map, List.map_nil]

/-! ## References -/

/-- A script keeps references to the table, for it has a primary key or a column `id`,
or is written with one. -/
def Table.takesKeys (table : Table) : Bool :=
  table.columns.isEmpty || table.primaryKey?.isSome || (table.column? "id").isSome

/-- The reference leads to a table that takes keys. -/
def Schema.anchors (schema : Schema) (reference : ColumnReference) : Bool :=
  (schema.table? reference.table).any Table.takesKeys

/-- The foreign keys that lead nowhere once they are written. -/
def Schema.danglingKeys (schema : Schema) : List (Column × ColumnReference) :=
  (schema.tables.flatMap Table.foreignKeys).filter fun key => !schema.anchors key.2

/-- The columns of a schema can be written as they are, but for their references. -/
structure Schema.FitsScript (schema : Schema) : Prop where
  notVirtual : ∀ table ∈ schema.tables, ∀ column ∈ table.columns, column.isVirtual = false
  notIndexWord : ∀ table ∈ schema.tables, ∀ column ∈ table.columns, ∀ word ∈ Sql.indexWords,
    Text.sameName column.name word = false
  types : ∀ table ∈ schema.tables, ∀ column ∈ table.columns, Sql.IsLegibleType column.type

namespace Document

theorem meantColumn?_anchored (table : Table) :
    (Sql.meantColumn? true table.anchored (some (Mermaid.keyOf table).1)).isSome =
      table.takesKeys := by
  by_cases hnone : table.columns = []
  · have hkey : table.primaryKey? = none := by
      rw [Table.primaryKey?, hnone]
      rfl
    rw [Table.anchored_of_eq_nil hnone, Mermaid.keyOf_fst, hkey, Table.takesKeys, hnone]
    rfl
  · rw [Table.anchored_of_ne_nil hnone, Mermaid.keyOf_fst, Sql.meantColumn?, if_pos rfl,
      Table.takesKeys, Option.isSome_or, List.isEmpty_eq_false_iff.2 hnone, Bool.false_or]
    cases hkey : table.primaryKey? with
    | none => simp
    | some key => simp

/-- A reference of a diagram leads somewhere in the script exactly if its table takes
keys. -/
theorem isSome_targetOf?_anchored {schema : Schema} (hplaced : Mermaid.WellPlaced schema.tables)
    (hdistinct : DistinctNames (schema.tables.map Table.name)) {table : Table}
    (htable : table ∈ schema.tables) {column : Column} (hcolumn : column ∈ table.columns) :
    (Sql.targetOf? schema.anchored.tables column).isSome =
      column.references.any schema.anchors := by
  rw [Sql.targetOf?, Sql.foreignKeyOf?]
  cases hreference : column.references with
  | none => rfl
  | some reference =>
    obtain ⟨target, htarget, hname, hkey, -⟩ :=
      hplaced.references table htable column hcolumn reference hreference
    have hfound : schema.table? reference.table = some target := by
      rw [← hname]
      exact find?_of_distinctNames Table.name hdistinct htarget
    have hanchored : findTable? schema.anchored.tables reference.table = some target.anchored := by
      rw [findTable?, Schema.anchored, List.find?_map]
      simp only [Function.comp_def, Table.anchored_name]
      rw [← findTable?, ← Schema.table?, hfound, Option.map_some]
    rw [Option.map_some, Option.bind_some, Sql.resolveTarget?_eq_bind, hanchored,
      Option.bind_some, Option.isSome_map, hkey, ← Mermaid.keyOf_fst, meantColumn?_anchored,
      Option.any_some, Schema.anchors, hfound, Option.any_some]

theorem wellNamed_anchored {schema : Schema} (hplaced : Mermaid.WellPlaced schema.tables)
    (hdistinct : DistinctNames (schema.tables.map Table.name)) :
    WellNamed schema.anchored.tables where
  distinctTables := by
    simpa [Schema.anchored, Function.comp_def, Table.anchored_name] using hdistinct
  nonempty := by
    rw [Schema.anchored, List.forall_mem_map]
    intro table _
    by_cases hnone : table.columns = []
    · rw [Table.anchored_of_eq_nil hnone]
      exact List.cons_ne_nil _ _
    · rwa [Table.anchored_of_ne_nil hnone]
  distinctColumns := by
    rw [Schema.anchored, List.forall_mem_map]
    intro table htable
    by_cases hnone : table.columns = []
    · rw [Table.anchored_of_eq_nil hnone]
      exact List.pairwise_singleton _ _
    · rw [Table.anchored_of_ne_nil hnone, DistinctNames, List.pairwise_map]
      exact hplaced.distinctColumns table htable

/-- A reference names an entity and its key, so that it can be quoted too. -/
theorem isLegible_of_isEntity {schema : Schema} (hplaced : Mermaid.WellPlaced schema.tables)
    (hentities : ∀ table ∈ schema.tables, table.IsEntity) (hfits : schema.FitsScript)
    {table : Table} (htable : table ∈ schema.tables) {column : Column}
    (hcolumn : column ∈ table.columns) : column.IsLegible where
  name := (hentities table htable).columns column hcolumn
  notVirtual := hfits.notVirtual table htable column hcolumn
  notIndexWord := hfits.notIndexWord table htable column hcolumn
  type := hfits.types table htable column hcolumn
  target := by
    intro reference hreference
    obtain ⟨target, htarget, hname, hkey, -⟩ :=
      hplaced.references table htable column hcolumn reference hreference
    refine ⟨hname ▸ (hentities target htarget).name, ?_⟩
    rw [hkey]
    cases hprimary : target.primaryKey? with
    | none => exact ⟨by decide, by decide⟩
    | some key => exact (hentities target htarget).columns key (Table.primaryKey?_mem hprimary)

/-- Entities with names that differ in more than case can be written as tables. -/
theorem areLegible_anchored {schema : Schema} (hplaced : Mermaid.WellPlaced schema.tables)
    (hentities : ∀ table ∈ schema.tables, table.IsEntity) (hsome : schema.tables ≠ [])
    (hdistinct : DistinctNames (schema.tables.map Table.name)) (hfits : schema.FitsScript) :
    AreLegible schema.anchored.tables where
  nonempty := by simpa [Schema.anchored] using hsome
  wellNamed := wellNamed_anchored hplaced hdistinct
  noViews := by
    rw [Schema.anchored, List.forall_mem_map]
    exact fun table htable => (Table.anchored_isView table).trans (hentities table htable).notView
  names := by
    rw [Schema.anchored, List.forall_mem_map]
    exact fun table htable => (Table.anchored_name table).symm ▸ (hentities table htable).name
  columns := by
    have hadded : Column.IsLegible { name := "id", type := "INT" } :=
      ⟨⟨by decide, by decide⟩, by decide, by decide,
        Sql.isLegibleType_of_isWritableType Sql.isWritableType_int, by simp⟩
    rw [Schema.anchored, List.forall_mem_map]
    exact fun table htable => Table.forall_mem_anchored
      (fun column hcolumn => isLegible_of_isEntity hplaced hentities hfits htable hcolumn) hadded

/-- The references of a table that its script keeps. -/
theorem countP_anchored {schema : Schema} (hplaced : Mermaid.WellPlaced schema.tables)
    (hdistinct : DistinctNames (schema.tables.map Table.name)) {table : Table}
    (htable : table ∈ schema.tables) :
    (table.anchored.columns.countP fun column =>
        (Sql.targetOf? schema.anchored.tables column).isSome) =
      table.foreignKeys.countP fun key => schema.anchors key.2 := by
  by_cases hnone : table.columns = []
  · rw [Table.anchored_of_eq_nil hnone, Table.foreignKeys, hnone]
    rfl
  · rw [Table.anchored_of_ne_nil hnone, Table.foreignKeys, List.countP_filterMap]
    apply List.countP_congr
    intro column hcolumn
    rw [isSome_targetOf?_anchored hplaced hdistinct htable hcolumn]
    cases column.references <;> rfl

/-- Posts that refer to a primary key, to an entity without columns, and to one that has
columns but no key. -/
def postsDiagram : String :=
  "erDiagram\nusers \x7b\nint id PK\n\x7d\nposts \x7b\nint author FK\n\x7d\n" ++
    "logs \x7b\nint level\n\x7d\nusers ||--o\x7b posts : author\n" ++
      "tags ||--o\x7b posts : tag\nlogs ||--o\x7b posts : log\n"

/-- Diagrams of which a script loses something: entities with names that differ in case
only, a parent with columns but no key, a type that ends the definition, an attribute
that is named like a linking column, and one that is named like an index. -/
def lossyDiagrams : List String :=
  ["erDiagram\nA \x7b int id PK \x7d\na \x7b int id PK \x7d\n",
    "erDiagram\nA \x7b string name \x7d\nA ||--o\x7b B : a_id\n",
    "erDiagram\nB \x7b a)b x \x7d\nA ||--o\x7b B : a_id\n",
    "erDiagram\nB \x7b int _ref_a FK \x7d\nA ||--o\x7b B : _ref_a\n",
    "erDiagram\nB \x7b int fulltext FK \x7d\nA ||--o\x7b B : fulltext\n"]

/-- The diagram has tables, but its script is not read with the same names and as many
relationships. -/
def IsLossy (text : String) : Prop :=
  ∃ schema, Mermaid.readSchema? .standard text = some schema ∧ schema.tables ≠ [] ∧
    ¬ ∃ reread, Sql.readSchema? .standard (Sql.schemaText schema) = some reread ∧
      reread.tables.map Table.name = schema.tables.map Table.name ∧
      reread.relationshipCount = schema.relationshipCount

end Document

end Crowfoot
