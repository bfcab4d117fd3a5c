import Crowfoot.Proofs.Schema.Latest
import Crowfoot.Proofs.Sql.Reordered

/-!
# Catalogs

The definitions of a script and the columns that it adds to them make a catalog of
tables and of foreign keys that wait for all tables to be known.  Of several
definitions of a table the last one counts, with its columns and its foreign keys;
what is added to the table goes behind them.
-/

namespace Crowfoot

namespace Sql

/-! ## Definitions -/

/-- The foreign keys that are kept for a table. -/
def keysOn (keys : List PendingKey) (table : String) : List ForeignKey :=
  (keys.filter fun key => Text.sameName key.table table).map PendingKey.foreignKey

/-- The last definition of a table. -/
def lastDefinition? (definitions : List TableDefinition) (table : String) :
    Option TableDefinition :=
  (properDefinitions definitions).reverse.find? fun definition =>
    Text.sameName definition.name table

section Definitions

variable (definitions : List TableDefinition)

theorem properDefinitions_concat (last : TableDefinition) :
    properDefinitions (definitions ++ [last]) =
      properDefinitions definitions ++ if last.columns.isEmpty then [] else [last] := by
  rw [properDefinitions, properDefinitions, List.filter_append, List.filter_singleton]
  cases last.columns.isEmpty <;> rfl

/-- Definitions leave a table for each name, as the last one defines it. -/
theorem tables_foldl_define :
    (definitions.foldl Catalog.define {}).tables =
      (latest TableDefinition.name (properDefinitions definitions)).map definedTable := by
  induction definitions using List.reverseRecOn with
  | nil => rfl
  | append_singleton earlier last ih =>
    rw [List.foldl_append, List.foldl_cons, List.foldl_nil, Catalog.define,
      properDefinitions_concat]
    split
    · rw [ih, List.append_nil]
    · rw [latest_concat]
      exact (congrArg (putNamed Table.name · (definedTable last)) ih).trans
        (map_putNamed _ (fun _ => rfl) _ last).symm

theorem keysOn_append (keys others : List PendingKey) (table : String) :
    keysOn (keys ++ others) table = keysOn keys table ++ keysOn others table := by
  rw [keysOn, List.filter_append, List.map_append]
  rfl

/-- Keys of one table are kept for the names of that table. -/
theorem keysOn_map (owner table : String) (foreignKeys : List ForeignKey) :
    keysOn (foreignKeys.map (⟨owner, ·⟩)) table =
      if Text.sameName owner table then foreignKeys else [] := by
  rw [keysOn, List.filter_map]
  cases hsame : Text.sameName owner table <;> simp [Function.comp_def, hsame]

/-- Of the foreign keys of definitions those of the last definition of a table are kept. -/
theorem keysOn_foldl_define (table : String) :
    keysOn (definitions.foldl Catalog.define {}).pending table =
      ((lastDefinition? definitions table).map TableDefinition.foreignKeys).getD [] := by
  induction definitions using List.reverseRecOn with
  | nil => rfl
  | append_singleton earlier last ih =>
    rw [List.foldl_append, List.foldl_cons, List.foldl_nil, Catalog.define, lastDefinition?,
      properDefinitions_concat]
    split
    · rw [ih, List.append_nil]
      rfl
    · rw [List.reverse_append, List.reverse_singleton, List.singleton_append, List.find?_cons,
        keysOn_append, keysOn_map]
      cases hsame : Text.sameName last.name table with
      | true =>
        have hnone : keysOn ((earlier.foldl Catalog.define {}).pending.filter
            fun key => !Text.sameName key.table last.name) table = [] := by
          simp only [keysOn, List.filter_filter, List.map_eq_nil_iff, List.filter_eq_nil_iff]
          intro key _
          rw [Text.sameName_comm key.table last.name, Text.sameName_congr hsame,
            Text.sameName_comm table]
          simp
        rw [hnone, List.nil_append]
        rfl
      | false =>
        have hkept : keysOn ((earlier.foldl Catalog.define {}).pending.filter
            fun key => !Text.sameName key.table last.name) table =
            keysOn (earlier.foldl Catalog.define {}).pending table := by
          rw [keysOn, keysOn, List.filter_filter]
          congr 2
          funext key
          cases hkey : Text.sameName key.table table with
          | false => rfl
          | true => rw [Text.sameName_congr hkey, Text.sameName_comm, hsame]; rfl
        rw [hkept, ih, if_neg Bool.false_ne_true, List.append_nil]
        rfl

end Definitions

/-! ## Added columns -/

/-- The clauses that are added to a table. -/
def clausesFor (added : List (String × Clause)) (table : String) : List Clause :=
  (added.filter fun addition => Text.sameName addition.1 table).map Prod.snd

/-- The column that a clause adds. -/
def Clause.column? : Clause → Option Column
  | .column declared _ => some declared
  | _ => none

/-- The foreign key that is declared with the column of a clause. -/
def Clause.columnKeys : Clause → List ForeignKey
  | .column _ foreignKey => foreignKey.toList
  | _ => []

theorem clausesFor_cons (addition : String × Clause) (added : List (String × Clause))
    (table : String) :
    clausesFor (addition :: added) table =
      (if Text.sameName addition.1 table then [addition.2] else []) ++ clausesFor added table := by
  rw [clausesFor, List.filter_cons]
  split <;> rfl

theorem foldl_upsertColumn_name (columns : List Column) (table : Table) :
    (columns.foldl Table.upsertColumn table).name = table.name :=
  List.foldlRecOn (motive := fun found : Table => found.name = table.name) columns
    Table.upsertColumn rfl fun _ hname _ _ => hname

theorem map_name_addColumn (catalog : Catalog) (addition : String × Clause) :
    (catalog.addColumn addition).tables.map Table.name = catalog.tables.map Table.name := by
  rw [Catalog.addColumn.eq_def]
  split
  · split
    · rfl
    · apply map_modifyFirst
      exact fun _ => rfl
  · rfl

/-- An added clause leaves every table with its column. -/
theorem tables_addColumn {catalog : Catalog}
    (hdistinct : DistinctNames (catalog.tables.map Table.name)) (addition : String × Clause) :
    (catalog.addColumn addition).tables = catalog.tables.map fun table =>
      ((clausesFor [addition] table.name).filterMap Clause.column?).foldl Table.upsertColumn
        table := by
  obtain ⟨owner, clause⟩ := addition
  have hother (hnone : clause.column? = none) : catalog.tables.map (fun table =>
      ((clausesFor [(owner, clause)] table.name).filterMap Clause.column?).foldl
        Table.upsertColumn table) = catalog.tables := by
    have hstay (table : Table) :
        (clausesFor [(owner, clause)] table.name).filterMap Clause.column? = [] := by
      rw [clausesFor_cons]
      split <;> simp [clausesFor, hnone]
    simp only [hstay, List.foldl_nil, List.map_id']
  cases clause with
  | column column foreignKey =>
    have hmodify : modifyTable catalog.tables owner (·.upsertColumn column) =
        catalog.tables.map fun table =>
          if Text.sameName table.name owner then table.upsertColumn column else table :=
      modifyFirst_eq_map Table.name hdistinct owner _
    have htables : (catalog.addColumn (owner, .column column foreignKey)).tables =
        modifyTable catalog.tables owner (·.upsertColumn column) := by
      rw [Catalog.addColumn]
      cases hfound : findTable? catalog.tables owner with
      | some table => rfl
      | none =>
        rw [hmodify]
        have hapart := List.find?_eq_none.1 hfound
        symm
        calc
          _ = catalog.tables.map id :=
            List.map_congr_left fun table hmem => by simp [hapart table hmem]
          _ = catalog.tables := List.map_id _
    rw [htables, hmodify]
    apply List.map_congr_left
    intro table _
    rw [clausesFor_cons, Text.sameName_comm]
    split <;> rfl
  | _ => exact (hother rfl).symm

/-- Added clauses leave every table with their columns, one after the other. -/
theorem tables_foldl_addColumn {catalog : Catalog}
    (hdistinct : DistinctNames (catalog.tables.map Table.name)) (added : List (String × Clause)) :
    (added.foldl Catalog.addColumn catalog).tables = catalog.tables.map fun table =>
      ((clausesFor added table.name).filterMap Clause.column?).foldl Table.upsertColumn table := by
  induction added generalizing catalog with
  | nil => simp [clausesFor]
  | cons addition rest ih =>
    have hstep := tables_addColumn hdistinct addition
    have hstill := map_name_addColumn catalog addition ▸ hdistinct
    rw [List.foldl_cons, ih hstill, hstep, List.map_map]
    apply List.map_congr_left
    intro table _
    rw [Function.comp_apply, foldl_upsertColumn_name, ← List.foldl_append,
      ← List.filterMap_append, clausesFor_cons addition rest, clausesFor_cons addition []]
    simp [clausesFor]

/-- The foreign keys of added columns are kept for a table that is there. -/
theorem keysOn_addColumn {catalog : Catalog} {table : String}
    (hthere : ∃ found ∈ catalog.tables, Text.sameName found.name table = true)
    (addition : String × Clause) :
    keysOn (catalog.addColumn addition).pending table =
      keysOn catalog.pending table ++ (clausesFor [addition] table).flatMap Clause.columnKeys := by
  obtain ⟨owner, clause⟩ := addition
  rw [clausesFor_cons]
  cases clause with
  | column column foreignKey =>
    rw [Catalog.addColumn]
    cases hfound : findTable? catalog.tables owner with
    | none =>
      obtain ⟨found, hmem, hsame⟩ := hthere
      have hapart := List.find?_eq_none.1 hfound found hmem
      rw [Text.sameName_congr hsame, Text.sameName_comm] at hapart
      simp [hapart, clausesFor]
    | some found =>
      have hsame := List.find?_some hfound
      rw [keysOn_append, keysOn_map, Text.sameName_congr hsame]
      split <;> simp [clausesFor, Clause.columnKeys]
  | _ => split <;> simp [Catalog.addColumn, Clause.columnKeys, clausesFor]

theorem keysOn_foldl_addColumn {catalog : Catalog} {table : String}
    (hthere : ∃ found ∈ catalog.tables, Text.sameName found.name table = true)
    (added : List (String × Clause)) :
    keysOn (added.foldl Catalog.addColumn catalog).pending table =
      keysOn catalog.pending table ++ (clausesFor added table).flatMap Clause.columnKeys := by
  induction added generalizing catalog with
  | nil => simp [clausesFor]
  | cons addition rest ih =>
    have hstill : ∃ found ∈ (catalog.addColumn addition).tables,
        Text.sameName found.name table = true := by
      obtain ⟨found, hmem, hsame⟩ := hthere
      have hname : found.name ∈ (catalog.addColumn addition).tables.map Table.name :=
        map_name_addColumn catalog addition ▸ List.mem_map_of_mem hmem
      obtain ⟨after, hafter, heq⟩ := List.mem_map.1 hname
      exact ⟨after, hafter, heq ▸ hsame⟩
    rw [List.foldl_cons, ih hstill, keysOn_addColumn hthere, List.append_assoc,
      ← List.flatMap_append, clausesFor_cons addition rest, clausesFor_cons addition []]
    simp [clausesFor]

section Statements

variable (statements : List Statement)

/-- The columns that are added to a table. -/
def addedColumns (table : String) : List Column :=
  (clausesFor (additions statements) table).filterMap Clause.column?

/-- A catalog has a table for each name that is defined with a column, as its last definition
and the added columns make it. -/
theorem tables_catalogOf :
    (catalogOf statements).tables =
      (latest TableDefinition.name (properDefinitions (tableDefinitions statements))).map
        fun definition => (addedColumns statements definition.name).foldl Table.upsertColumn
          (definedTable definition) := by
  have hdistinct : DistinctNames
      (((tableDefinitions statements).foldl Catalog.define {}).tables.map Table.name) := by
    rw [tables_foldl_define, List.map_map]
    exact distinctNames_latest TableDefinition.name _
  rw [catalogOf, tables_foldl_addColumn hdistinct, tables_foldl_define, List.map_map]
  rfl

/-- A catalog keeps the foreign keys of the last definition of a table and those of its added
columns. -/
theorem keysOn_catalogOf {table : String}
    (hdefined : ∃ definition ∈ properDefinitions (tableDefinitions statements),
      Text.sameName definition.name table = true) :
    keysOn (catalogOf statements).pending table =
      ((lastDefinition? (tableDefinitions statements) table).map
        TableDefinition.foreignKeys).getD [] ++
      (clausesFor (additions statements) table).flatMap Clause.columnKeys := by
  have hthere : ∃ found ∈ ((tableDefinitions statements).foldl Catalog.define {}).tables,
      Text.sameName found.name table = true := by
    obtain ⟨definition, hmem, hsame⟩ := hdefined
    obtain ⟨found, hfound, hname⟩ := exists_mem_latest TableDefinition.name hmem
    refine ⟨definedTable found, ?_, Text.sameName_trans hname hsame⟩
    rw [tables_foldl_define]
    exact List.mem_map_of_mem hfound
  rw [catalogOf, keysOn_foldl_addColumn hthere, keysOn_foldl_define]

/-- Every table of a catalog is defined with a column. -/
theorem exists_definition_of_mem_catalogOf {table : Table}
    (hmem : table ∈ (catalogOf statements).tables) :
    ∃ definition ∈ properDefinitions (tableDefinitions statements),
      definition.name = table.name := by
  rw [tables_catalogOf] at hmem
  obtain ⟨definition, hdefinition, rfl⟩ := List.mem_map.1 hmem
  refine ⟨definition, mem_of_mem_latest TableDefinition.name hdefinition, ?_⟩
  rw [foldl_upsertColumn_name, definedTable]

end Statements

end Sql

end Crowfoot
