import Crowfoot.Proofs.Sql.Agreement
import Crowfoot.Proofs.Sql.Contents

/-!
# The last key of a column

A column refers to where the last of its foreign keys leads that leads anywhere.
The foreign keys of a column are those that are declared for its name, be it with
the column, apart from it or at the end of the script.  A column that is defined
again takes the place of the earlier one, but the keys that were declared with the
earlier one stay.
-/

namespace Crowfoot

/-- The table and the column that a column refers to. -/
def Column.target? (column : Column) : Option (String × String) :=
  column.references.map fun reference => (reference.table, reference.column)

namespace Sql

/-- Where names are distinct, a change of a column changes every column of its name. -/
theorem exists_of_mem_changeColumn {tables : List Table} (hnamed : WellNamed tables)
    {table column : String} {change : Column → Column} {found : Table}
    (hmem : found ∈ changeColumn tables table column change) :
    ∃ old ∈ tables, found = { old with
      columns := old.columns.map fun kept =>
        if Text.sameName old.name table && Text.sameName kept.name column then
          change kept
        else
          kept } := by
  rw [changeColumn, modifyTable, modifyFirst_eq_map Table.name hnamed.distinctTables] at hmem
  obtain ⟨old, hold, rfl⟩ := List.mem_map.1 hmem
  refine ⟨old, hold, ?_⟩
  cases hsame : Text.sameName old.name table with
  | true =>
    rw [if_pos rfl, Table.modifyColumn,
      modifyFirst_eq_map Column.name (hnamed.distinctColumns old hold)]
    rfl
  | false => simp

/-! ## Foreign keys on columns -/

/-- Where the foreign keys of a column lead. -/
def targetsOn (target : ForeignKey → Option (String × String)) (keys : List PendingKey)
    (table column : String) : List (String × String) :=
  ((keysOn keys table).filter fun key => Text.sameName column key.column).filterMap target

/-- Every column refers to the last of its targets. -/
def RefersToLast (targets : String → String → List (String × String)) (tables : List Table) :
    Prop :=
  ∀ table ∈ tables, ∀ column ∈ table.columns,
    column.target? = (targets table.name column.name).getLast?

section Targets

variable {targets : String → String → List (String × String)} {tables : List Table}

theorem targetsOn_cons (target : ForeignKey → Option (String × String)) (key : PendingKey)
    (keys : List PendingKey) (table column : String) :
    targetsOn target (key :: keys) table column =
      (if Text.sameName table key.table && Text.sameName column key.foreignKey.column then
          (target key.foreignKey).toList else []) ++ targetsOn target keys table column := by
  rw [targetsOn, keysOn, List.filter_cons, Text.sameName_comm key.table]
  cases Text.sameName table key.table with
  | false => rfl
  | true =>
    rw [if_pos rfl, List.map_cons, List.filter_cons, Bool.true_and]
    cases Text.sameName column key.foreignKey.column with
    | false => rfl
    | true => rw [if_pos rfl, List.filterMap_cons]; cases target key.foreignKey <;> rfl

/-- A change that leaves references alone leaves what columns refer to. -/
theorem RefersToLast.changeColumn (hlast : RefersToLast targets tables) (table column : String)
    {change : Column → Column} (hname : ∀ found, (change found).name = found.name)
    (htarget : ∀ found, (change found).target? = found.target?) :
    RefersToLast targets (changeColumn tables table column change) := by
  intro after hafter found hfound
  rcases mem_modifyFirst hafter with hold | ⟨old, hold, -, rfl⟩
  · exact hlast after hold found hfound
  · rcases mem_modifyFirst hfound with hkept | ⟨kept, hkept, -, rfl⟩
    · exact hlast old hold found hkept
    · rw [htarget, hname]
      exact hlast old hold kept hkept

theorem RefersToLast.applyKey (hlast : RefersToLast targets tables)
    (addition : String × Clause) : RefersToLast targets (applyKey tables addition) := by
  rw [Sql.applyKey.eq_def]
  split
  · exact hlast.changeColumn _ _ (fun _ => rfl) fun _ => rfl
  · rw [modifyTable_foldl]
    refine List.foldlRecOn _ _ hlast ?_
    intro keyed hkeyed name _
    exact hkeyed.changeColumn _ _ (fun _ => rfl) fun _ => rfl
  · exact hlast

/-- A foreign key that leads anywhere is the last of its column. -/
theorem RefersToLast.pointKey (hlast : RefersToLast targets tables) (hnamed : WellNamed tables)
    (target : ForeignKey → Option (String × String)) (key : PendingKey) :
    RefersToLast (fun table column => targets table column ++ targetsOn target [key] table column)
      (pointKey target tables key) := by
  intro table htable column hcolumn
  obtain ⟨old, hold, rfl⟩ := exists_of_mem_changeColumn hnamed htable
  obtain ⟨kept, hkept, rfl⟩ := List.mem_map.1 hcolumn
  have hbefore := hlast old hold kept hkept
  dsimp only
  split
  · rename_i hon
    rw [pointTo_name, targetsOn_cons, if_pos hon]
    cases htarget : target key.foreignKey with
    | none => simpa [pointTo, targetsOn, keysOn] using hbefore
    | some found => simp [pointTo, targetsOn, keysOn, Column.target?, Column.referTo]
  · rename_i hoff
    rw [targetsOn_cons, if_neg hoff]
    simpa [targetsOn, keysOn] using hbefore

theorem wellNamed_pointKey (hnamed : WellNamed tables)
    (target : ForeignKey → Option (String × String)) (key : PendingKey) :
    WellNamed (Sql.pointKey target tables key) :=
  hnamed.of_outline_eq (outline_changeColumn (pointTo_name _) _ _ _)

/-- Of several foreign keys the last one of a column that leads anywhere counts. -/
theorem RefersToLast.foldl_pointKey (hlast : RefersToLast targets tables)
    (hnamed : WellNamed tables) (target : ForeignKey → Option (String × String))
    (keys : List PendingKey) :
    RefersToLast (fun table column => targets table column ++ targetsOn target keys table column)
      (keys.foldl (Sql.pointKey target) tables) := by
  induction keys generalizing targets tables with
  | nil => simpa [targetsOn, keysOn] using hlast
  | cons key rest ih =>
    have hstep := ih (hlast.pointKey hnamed target key) (wellNamed_pointKey hnamed target key)
    have htargets (table column : String) :
        targets table column ++ targetsOn target (key :: rest) table column =
          (targets table column ++ targetsOn target [key] table column) ++
            targetsOn target rest table column := by
      rw [targetsOn_cons target key rest, targetsOn_cons target key [], List.append_assoc]
      simp [targetsOn, keysOn]
    simpa only [htargets, List.foldl_cons] using hstep

end Targets

/-! ## Base tables -/

/-- The foreign keys that a clause declares apart from columns. -/
def Clause.constraintKeys : Clause → List ForeignKey
  | .foreignKeys keys => keys
  | _ => []

/-- The foreign keys that clauses add to tables apart from columns. -/
def addedKeys (added : List (String × Clause)) : List PendingKey :=
  added.flatMap fun addition => addition.2.constraintKeys.map (⟨addition.1, ·⟩)

theorem foldl_applyForeignKeys (added : List (String × Clause)) (tables : List Table) :
    added.foldl applyForeignKeys tables =
      (addedKeys added).foldl (placeForeignKey false) tables := by
  rw [addedKeys, List.foldl_flatMap]
  congr 1
  funext tables addition
  obtain ⟨owner, clause⟩ := addition
  cases clause with
  | foreignKeys keys => rw [applyForeignKeys, Clause.constraintKeys, List.foldl_map]
  | _ => rfl

theorem keysOn_addedKeys (added : List (String × Clause)) (table : String) :
    keysOn (addedKeys added) table =
      (clausesFor added table).flatMap Clause.constraintKeys := by
  induction added with
  | nil => rfl
  | cons addition rest ih =>
    rw [addedKeys, List.flatMap_cons, keysOn_append, keysOn_map, ← addedKeys, ih, clausesFor_cons,
      List.flatMap_append]
    split <;> simp

theorem resolveTarget?_foldl_placeForeignKey (lenient : Bool) (keys : List PendingKey)
    (tables : List Table) :
    resolveTarget? lenient (keys.foldl (placeForeignKey lenient) tables) =
      resolveTarget? lenient tables := by
  refine List.foldlRecOn (motive := fun placed : List Table =>
    resolveTarget? lenient placed = resolveTarget? lenient tables) keys _ rfl ?_
  intro placed hplaced key _
  rw [← hplaced]
  exact funext (resolveTarget?_placeForeignKey lenient placed key)

section Script

variable (statements : List Statement)

/-- The tables of a script before foreign keys are added apart from columns. -/
def keyedTables : List Table :=
  (additions statements).foldl applyKey
    ((catalogOf statements).pending.foldl (placeForeignKey true) (catalogOf statements).tables)

theorem keyedTables_changed : Changed (catalogOf statements).tables (keyedTables statements) :=
  List.foldlRecOn (additions statements) applyKey
    (foldl_placeForeignKey_changed true (catalogOf statements).tables
      (catalogOf statements).pending)
    fun keyed hkeyed addition _ => hkeyed.trans (applyKey_changed keyed addition)

theorem baseTables_eq_foldl_applyForeignKeys :
    baseTables statements =
      (additions statements).foldl applyForeignKeys (keyedTables statements) :=
  rfl

theorem baseTables_eq_foldl_placeForeignKey :
    baseTables statements =
      (addedKeys (additions statements)).foldl (placeForeignKey false) (keyedTables statements) :=
  foldl_applyForeignKeys (additions statements) (keyedTables statements)

/-- Added foreign keys do not change where foreign keys lead. -/
theorem resolveTarget?_baseTables :
    resolveTarget? false (baseTables statements) =
      resolveTarget? false (keyedTables statements) := by
  rw [baseTables_eq_foldl_placeForeignKey, resolveTarget?_foldl_placeForeignKey]

theorem baseTables_eq_foldl_pointKey :
    baseTables statements = (addedKeys (additions statements)).foldl
      (pointKey (resolveTarget? false (baseTables statements))) (keyedTables statements) := by
  rw [resolveTarget?_baseTables, ← foldl_placeForeignKey_eq_pointKey,
    ← baseTables_eq_foldl_placeForeignKey]

/-- The foreign keys that the last definition of a table declares, and those that are declared
with columns that are added to it. -/
def definedKeysFor (table : String) : List ForeignKey :=
  ((lastDefinition? (tableDefinitions statements) table).map
      TableDefinition.foreignKeys).getD [] ++
    (clausesFor (additions statements) table).flatMap Clause.columnKeys

/-- The foreign keys that are added to a table apart from columns. -/
def addedKeysFor (table : String) : List ForeignKey :=
  (clausesFor (additions statements) table).flatMap Clause.constraintKeys

/-- Where the foreign keys of a column lead: those that are declared with tables and columns,
and behind them those that are added, which take no primary key for a missing column. -/
def keyTargets (table column : String) : List (String × String) :=
  ((definedKeysFor statements table).filter fun key =>
      Text.sameName column key.column).filterMap
        (resolveTarget? true (catalogOf statements).tables) ++
    ((addedKeysFor statements table).filter fun key =>
      Text.sameName column key.column).filterMap (resolveTarget? false (baseTables statements))

variable {statements}

theorem keysOn_pending {table : Table} (htable : table ∈ baseTables statements) :
    keysOn (catalogOf statements).pending table.name = definedKeysFor statements table.name := by
  obtain ⟨old, hold, hname, -⟩ :=
    exists_of_outline_eq (baseTables_changed statements).outline_eq htable
  obtain ⟨definition, hdefinition, hsame⟩ := exists_definition_of_mem_catalogOf statements hold
  apply keysOn_catalogOf
  exact ⟨definition, hdefinition, by rw [hsame, hname, Text.sameName_refl]⟩

/-- Every column of a base table refers to the last of its targets. -/
theorem baseTables_refersToLast (hdeclared : ∀ statement ∈ statements, statement.IsDeclared) :
    RefersToLast (keyTargets statements) (baseTables statements) := by
  have hcatalog := catalogOf_isDeclaredCatalog hdeclared
  have hstart : RefersToLast (fun _ _ => []) (catalogOf statements).tables := by
    intro table htable column hcolumn
    rw [Column.target?, (hcatalog.columns table htable column hcolumn).unlinked.references]
    rfl
  have hreferring := hstart.foldl_pointKey hcatalog.named
    (resolveTarget? true (catalogOf statements).tables) (catalogOf statements).pending
  rw [← foldl_placeForeignKey_eq_pointKey] at hreferring
  have hkeyed := List.foldlRecOn (additions statements) applyKey hreferring
    fun _ hkeyed addition _ => hkeyed.applyKey addition
  have hnamed : WellNamed (keyedTables statements) :=
    hcatalog.named.of_outline_eq (keyedTables_changed statements).outline_eq
  have hplaced := hkeyed.foldl_pointKey hnamed (resolveTarget? false (baseTables statements))
    (addedKeys (additions statements))
  rw [← keyedTables, ← baseTables_eq_foldl_pointKey] at hplaced
  intro table htable column hcolumn
  have hreferred := hplaced table htable column hcolumn
  simp only [targetsOn, keysOn_addedKeys, keysOn_pending htable, List.nil_append] at hreferred
  exact hreferred

end Script

theorem withCardinality_target? (tables : List Table) (column : Column) :
    (withCardinality tables column).target? = column.target? := by
  rw [Column.target?, Column.target?, withCardinality, Column.withCardinality, Option.map_map]
  rfl

/-- A column of a base table refers to where the last of its foreign keys leads that leads
anywhere, and it is a foreign key if there is one; without any foreign key that is declared for
its name, be it with an earlier definition of the column, it is none. -/
theorem readSchema?_lastKey {config : CategoryConfig} {text : String} {schema : Schema}
    (hread : readSchema? config text = some schema) :
    ∀ table ∈ schema.bases, ∀ column ∈ table.columns,
      column.target? =
        (keyTargets (Statement.ofScript text.toList) table.name column.name).getLast? ∧
      (column.isForeignKey = true ↔
        keyTargets (Statement.ofScript text.toList) table.name column.name ≠ []) ∧
      ((∀ key ∈ definedKeysFor (Statement.ofScript text.toList) table.name ++
          addedKeysFor (Statement.ofScript text.toList) table.name,
        Text.sameName column.name key.column = false) → column.isForeignKey = false) := by
  obtain ⟨finish, hfinish, hassign⟩ :=
    assign_schemaTables config (Statement.ofScript text.toList)
  have hbases : schema.bases = (baseTables (Statement.ofScript text.toList)).map finish := by
    rw [Schema.bases, readSchema?_tables hread, hassign,
      finished_bases ofScript_isDeclared hfinish]
  rw [hbases, List.forall_mem_map]
  intro base hbase column hcolumn
  rw [(hfinish base).2.2] at hcolumn
  obtain ⟨kept, hkept, rfl⟩ := List.mem_map.1 hcolumn
  have hlast := baseTables_refersToLast ofScript_isDeclared base hbase kept hkept
  have hforeign : kept.isForeignKey = true ↔
      keyTargets (Statement.ofScript text.toList) base.name kept.name ≠ [] := by
    have hsound := (baseTables_isBase ofScript_isDeclared).sound base hbase kept hkept
    rw [hsound.consistent, ← List.getLast?_isSome, ← hlast, Column.target?, Option.isSome_map]
  rw [(hfinish base).1, withCardinality_target?]
  refine ⟨hlast, hforeign, fun hnone => ?_⟩
  have hempty : keyTargets (Statement.ofScript text.toList) base.name kept.name = [] := by
    have hother : ∀ key ∈ definedKeysFor (Statement.ofScript text.toList) base.name ++
        addedKeysFor (Statement.ofScript text.toList) base.name,
          ¬Text.sameName kept.name key.column = true :=
      fun key hkey => ne_true_of_eq_false (hnone key hkey)
    obtain ⟨hdefined, hadded⟩ := List.forall_mem_append.1 hother
    rw [keyTargets, List.filter_eq_nil_iff.2 hdefined, List.filter_eq_nil_iff.2 hadded]
    rfl
  exact (Bool.not_eq_true _).mp fun htrue => hforeign.1 htrue hempty

/-- A column of two foreign keys, the second one added, and a third one that leads nowhere. -/
def twiceKeyedScript : String :=
  "CREATE TABLE p(i INT PRIMARY KEY,c INT);CREATE TABLE t(a INT REFERENCES p);" ++
    "ALTER TABLE t ADD FOREIGN KEY(a)REFERENCES P(C),ADD FOREIGN KEY(a)REFERENCES p(d);"

theorem ofScript_twiceKeyedScript :
    Statement.ofScript twiceKeyedScript.toList =
      [.createTable ⟨"p", [({ name := "i", type := "INT" } : Column).asPrimaryKey,
          { name := "c", type := "INT" }], []⟩,
        .createTable ⟨"t", [{ name := "a", type := "INT" }], [⟨"a", "p", none⟩]⟩,
        .alterTable ⟨"t", [.foreignKeys [⟨"a", "P", some "C"⟩],
          .foreignKeys [⟨"a", "p", some "d"⟩]]⟩] := by
  decide +kernel

theorem isSome_readSchema?_twiceKeyedScript :
    (readSchema? .standard twiceKeyedScript).isSome = true := by
  rw [readSchema?, ofScript_twiceKeyedScript]
  decide

theorem readSchema?_lastKey_twiceKeyedScript :
    keyTargets (Statement.ofScript twiceKeyedScript.toList) "t" "a" = [("p", "i"), ("p", "c")] ∧
      ∃ schema, readSchema? .standard twiceKeyedScript = some schema ∧
        ∀ table ∈ schema.bases, ∀ column ∈ table.columns, column.target? =
          (keyTargets (Statement.ofScript twiceKeyedScript.toList) table.name
            column.name).getLast? := by
  have htargets : keyTargets (Statement.ofScript twiceKeyedScript.toList) "t" "a" =
      [("p", "i"), ("p", "c")] := by
    rw [ofScript_twiceKeyedScript]
    decide
  obtain ⟨schema, hread⟩ := Option.isSome_iff_exists.1 isSome_readSchema?_twiceKeyedScript
  refine ⟨htargets, schema, hread, fun table htable column hcolumn => ?_⟩
  exact (readSchema?_lastKey hread table htable column hcolumn).1

/-- A column with a foreign key that is defined again without one, in its table or as a column
that is added. -/
def retypedScript (added : Bool) : String :=
  "CREATE TABLE p (id INT PRIMARY KEY);" ++
    if added then
      "CREATE TABLE t (a INT REFERENCES p(id));ALTER TABLE t ADD COLUMN a TEXT;"
    else
      "CREATE TABLE t (a INT REFERENCES p(id), a TEXT);"

/-- The foreign key of the earlier definition stays with the column, which has the type of the
later one. -/
theorem readSchema?_retypedScript :
    (readSchema? .standard (retypedScript true)).map (fun schema => schema.bases.map fun table =>
        table.columns.map fun column => (column.name, column.type, column.isForeignKey)) =
      some [[("id", "INT", false)], [("a", "TEXT", true)]] ∧
    (readSchema? .standard (retypedScript false)).map (fun schema => schema.bases.map fun table =>
        table.columns.map fun column => (column.name, column.type, column.isForeignKey)) =
      some [[("id", "INT", false)], [("a", "TEXT", true)]] := by
  constructor
  · decide +kernel
  · decide +kernel

end Sql

end Crowfoot
