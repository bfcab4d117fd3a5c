import Crowfoot.Proofs.Sql.Reread
import Crowfoot.Proofs.Sql.Unresolved
import Mathlib.Data.List.Perm.Basic

/-!
# Statements in another order

Only the order of statements of one kind bears on the schema of a script.  Without
views and with tables of different names, the order of the tables bears on nothing
but the order of the tables: names are found wherever they stand, and the foreign
keys of different tables are put on different columns, so that neither the tables
nor their keys get in each other's way.
-/

namespace Crowfoot

/-! ## Lists of distinct names -/

section Named

variable {α : Type} (view : α → String)

/-- Where names are distinct, a name is found wherever it stands. -/
theorem find?_eq_of_perm {left right : List α} (hperm : left.Perm right)
    (hdistinct : DistinctNames (left.map view)) (name : String) :
    left.find? (fun element => Text.sameName (view element) name) =
      right.find? fun element => Text.sameName (view element) name := by
  cases hfound : right.find? fun element => Text.sameName (view element) name with
  | none =>
    rw [List.find?_eq_none] at hfound ⊢
    exact fun element hmem => hfound element (hperm.mem_iff.1 hmem)
  | some element =>
    have hsame := List.find?_some hfound
    have htest : (fun other => Text.sameName (view other) name) =
        fun other => Text.sameName (view other) (view element) :=
      funext fun other => (Text.sameName_congr_right hsame (view other)).symm
    rw [htest]
    exact find?_of_distinctNames view hdistinct
      (hperm.mem_iff.2 (List.mem_of_find?_eq_some hfound))

theorem DistinctNames.perm {left right : List String} (hdistinct : DistinctNames left)
    (hperm : left.Perm right) : DistinctNames right := by
  have hsymm {first second : String} (hdiffer : Text.sameName first second = false) :
      Text.sameName second first = false := by
    rwa [Text.sameName_comm]
  exact (hperm.pairwise_iff hsymm).1 hdistinct

end Named

/-- Two folds whose steps commute may be done in either order. -/
theorem foldl_comm_of_forall {α β : Type} {step : β → α → β} {left right : List α}
    (hcomm : ∀ first ∈ left, ∀ second ∈ right, ∀ state,
      step (step state first) second = step (step state second) first) (state : β) :
    right.foldl step (left.foldl step state) = left.foldl step (right.foldl step state) := by
  have hsingle (second : α) (hsecond : second ∈ right) (start : β) :
      step (left.foldl step start) second = left.foldl step (step start second) := by
    induction left generalizing start with
    | nil => rfl
    | cons first rest ih =>
      obtain ⟨hfirst, hrest⟩ := List.forall_mem_cons.1 hcomm
      rw [List.foldl_cons, ih hrest, hfirst second hsecond, List.foldl_cons]
  induction right generalizing state with
  | nil => rfl
  | cons second rest ih =>
    rw [List.foldl_cons, hsingle second List.mem_cons_self, List.foldl_cons]
    exact ih (fun first hfirst other hother => hcomm first hfirst other
      (List.mem_cons_of_mem second hother)) _ fun other hother => hsingle other
        (List.mem_cons_of_mem second hother)

namespace Sql

/-! ## Statements by kind -/

/-- The `ALTER TABLE` statements of a script. -/
def alterations (statements : List Statement) : List Alteration :=
  statements.filterMap fun statement =>
    match statement with
    | .alterTable alteration => some alteration
    | _ => none

/-- The names that a script gives its schema. -/
def namings (statements : List Statement) : List String :=
  statements.filterMap fun statement =>
    match statement with
    | .nameSchema name => some name
    | _ => none

theorem additions_eq_flatMap (statements : List Statement) :
    additions statements = (alterations statements).flatMap fun alteration =>
      alteration.additions.map (alteration.table, ·) := by
  induction statements with
  | nil => rfl
  | cons statement rest ih =>
    cases statement <;> simp_all [additions, alterations]

/-- The tables of a schema depend on the definitions of tables, the definitions of
views and the additions. -/
theorem schemaTables_eq_of_kinds {left right : List Statement}
    (htables : tableDefinitions left = tableDefinitions right)
    (hviews : viewDefinitions left = viewDefinitions right)
    (hadditions : additions left = additions right) : schemaTables left = schemaTables right := by
  simp only [schemaTables, baseTables, catalogOf, resolveViews, htables, hviews, hadditions]

/-- A schema depends on the base tables, the definitions of views and the names given to it. -/
theorem schemaOfStatements?_eq_of_baseTables (config : CategoryConfig)
    {left right : List Statement} (hbase : baseTables left = baseTables right)
    (hviews : viewDefinitions left = viewDefinitions right)
    (hnamings : namings left = namings right) :
    schemaOfStatements? config left = schemaOfStatements? config right := by
  have htables : schemaTables left = schemaTables right := by
    simp only [schemaTables, resolveViews, hbase, hviews]
  have hname : schemaName left = schemaName right :=
    congrArg (fun names : List String => names.getLast?.getD defaultName) hnamings
  rw [schemaOfStatements?, schemaOfStatements?, htables, hname]

/-! ## Tables in another order -/

/-- The same tables of distinct names, perhaps in another order. -/
structure Rearranges (left right : List Table) : Prop where
  perm : left.Perm right
  distinct : DistinctNames (left.map Table.name)

section Rearranges

variable {left right : List Table}

theorem Rearranges.distinct_right (hsame : Rearranges left right) :
    DistinctNames (right.map Table.name) :=
  hsame.distinct.perm (hsame.perm.map Table.name)

theorem Rearranges.findTable?_eq (hsame : Rearranges left right) (name : String) :
    findTable? left name = findTable? right name :=
  find?_eq_of_perm Table.name hsame.perm hsame.distinct name

theorem Rearranges.resolveTarget?_eq (hsame : Rearranges left right) (lenient : Bool)
    (foreignKey : ForeignKey) :
    resolveTarget? lenient left foreignKey = resolveTarget? lenient right foreignKey := by
  rw [resolveTarget?_eq_bind, resolveTarget?_eq_bind, hsame.findTable?_eq]

theorem Rearranges.modifyTable (hsame : Rearranges left right) (name : String)
    {change : Table → Table} (hname : ∀ table, (change table).name = table.name) :
    Rearranges (modifyTable left name change) (modifyTable right name change) := by
  constructor
  · rw [Crowfoot.modifyTable, Crowfoot.modifyTable, modifyFirst_eq_map Table.name hsame.distinct,
      modifyFirst_eq_map Table.name hsame.distinct_right]
    exact hsame.perm.map _
  · rw [Crowfoot.modifyTable, map_modifyFirst Table.name hname]
    exact hsame.distinct

/-- A foreign key is placed the same wherever the tables stand. -/
theorem Rearranges.placeForeignKey (hsame : Rearranges left right) (lenient : Bool)
    (key : PendingKey) :
    Rearranges (placeForeignKey lenient left key) (placeForeignKey lenient right key) := by
  rw [Sql.placeForeignKey, Sql.placeForeignKey, hsame.resolveTarget?_eq]
  cases resolveTarget? lenient right key.foreignKey with
  | none => exact hsame
  | some target => exact hsame.modifyTable key.table fun _ => rfl

/-- What keeps tables the same, step by step, keeps them the same in the end. -/
theorem Rearranges.foldl {α : Type} {step : List Table → α → List Table}
    (hstep : ∀ {left right}, Rearranges left right → ∀ action,
      Rearranges (step left action) (step right action))
    (actions : List α) (hsame : Rearranges left right) :
    Rearranges (actions.foldl step left) (actions.foldl step right) := by
  induction actions generalizing left right with
  | nil => exact hsame
  | cons action rest ih => exact ih (hstep hsame action)

theorem foldl_modifyColumn_name (names : List String) (change : Column → Column) (table : Table) :
    (names.foldl (fun table name => table.modifyColumn name change) table).name = table.name := by
  induction names generalizing table with
  | nil => rfl
  | cons name rest ih => exact ih _

theorem Rearranges.applyKey (hsame : Rearranges left right) (addition : String × Clause) :
    Rearranges (applyKey left addition) (applyKey right addition) := by
  rw [Sql.applyKey.eq_def, Sql.applyKey.eq_def]
  split
  · exact hsame.modifyTable addition.1 fun _ => rfl
  · exact hsame.modifyTable addition.1 (foldl_modifyColumn_name _ _)
  · exact hsame

theorem Rearranges.applyForeignKeys (hsame : Rearranges left right)
    (addition : String × Clause) :
    Rearranges (applyForeignKeys left addition) (applyForeignKeys right addition) := by
  rw [Sql.applyForeignKeys.eq_def, Sql.applyForeignKeys.eq_def]
  split
  · exact hsame.foldl (fun hnext key => hnext.placeForeignKey false ⟨addition.1, key⟩) _
  · exact hsame

/-- Cardinalities are attached the same. -/
theorem Rearranges.attachCardinalities (hsame : Rearranges left right) :
    (attachCardinalities left).Perm (attachCardinalities right) := by
  have hfind : findTable? left = findTable? right := funext hsame.findTable?_eq
  have hcolumn : withCardinality left = withCardinality right := by
    funext column
    rw [withCardinality, withCardinality, hfind]
  rw [Sql.attachCardinalities, Sql.attachCardinalities, hcolumn]
  exact hsame.perm.map _

end Rearranges

/-! ## Catalogs -/

/-- The definitions that define a table: those with a column. -/
def properDefinitions (definitions : List TableDefinition) : List TableDefinition :=
  definitions.filter fun definition => !definition.columns.isEmpty

/-- The table of a definition, before anything is added to it. -/
def definedTable (definition : TableDefinition) : Table where
  name := definition.name
  columns := definition.columns

/-- The foreign keys of a definition. -/
def definedKeys (definition : TableDefinition) : List PendingKey :=
  definition.foreignKeys.map (⟨definition.name, ·⟩)

theorem table_of_mem_definedKeys {definition : TableDefinition} {key : PendingKey}
    (hmem : key ∈ definedKeys definition) : key.table = definition.name := by
  obtain ⟨foreignKey, -, rfl⟩ := List.mem_map.1 hmem
  rfl

/-- Definitions of distinct names make a table each and keep all of their keys. -/
theorem foldl_define_of_distinctNames {done rest : List TableDefinition}
    (hdistinct : DistinctNames ((done ++ rest).map TableDefinition.name)) :
    rest.foldl Catalog.define ⟨done.map definedTable, done.flatMap definedKeys⟩ =
      ⟨(done ++ properDefinitions rest).map definedTable,
        (done ++ properDefinitions rest).flatMap definedKeys⟩ := by
  induction rest generalizing done with
  | nil => simp [properDefinitions]
  | cons definition more ih =>
    cases hempty : definition.columns.isEmpty with
    | true =>
      have hrest : DistinctNames ((done ++ more).map TableDefinition.name) := by
        refine List.Pairwise.sublist (List.Sublist.map _ ?_) hdistinct
        exact List.Sublist.append_left (List.sublist_cons_self definition more) done
      have hproper : properDefinitions (definition :: more) = properDefinitions more := by
        simp [properDefinitions, hempty]
      rw [List.foldl_cons, Catalog.define, if_pos hempty, ih hrest, hproper]
    | false =>
      have hshift : done ++ definition :: more = (done ++ [definition]) ++ more := by simp
      have hproper : properDefinitions (definition :: more) =
          definition :: properDefinitions more := by
        simp [properDefinitions, hempty]
      rw [hshift] at hdistinct
      have hfirst : DistinctNames ((done ++ [definition]).map TableDefinition.name) := by
        rw [List.map_append] at hdistinct
        exact (List.pairwise_append.1 hdistinct).1
      have htables : putFirst (fun old => Text.sameName old.name definition.name)
          (definedTable definition) (done.map definedTable) =
            (done ++ [definition]).map definedTable := by
        rw [List.map_append, List.map_singleton]
        apply putFirst_of_distinctNames Table.name (definedTable definition)
        simpa [definedTable, Function.comp_def] using hfirst
      have hpending : (done.flatMap definedKeys).filter
          (fun key => !Text.sameName key.table definition.name) = done.flatMap definedKeys := by
        rw [List.filter_eq_self]
        intro key hkey
        obtain ⟨old, hold, hmem⟩ := List.mem_flatMap.1 hkey
        rw [List.map_append, DistinctNames, List.pairwise_append] at hfirst
        have hdiffer := hfirst.2.2 old.name (List.mem_map_of_mem hold) definition.name (by simp)
        rw [table_of_mem_definedKeys hmem, hdiffer, Bool.not_false]
      have hkeys : done.flatMap definedKeys ++ definedKeys definition =
          (done ++ [definition]).flatMap definedKeys := by
        simp
      have hdefine : Catalog.define ⟨done.map definedTable, done.flatMap definedKeys⟩ definition =
          ⟨(done ++ [definition]).map definedTable, (done ++ [definition]).flatMap definedKeys⟩ := by
        rw [Catalog.define, if_neg (by rw [hempty]; exact Bool.false_ne_true), ← hkeys, ← htables]
        exact congrArg (Catalog.mk _) (congrArg (· ++ _) hpending)
      rw [List.foldl_cons, hdefine, ih hdistinct, hproper, List.append_assoc,
        List.singleton_append]

theorem distinctNames_properDefinitions {definitions : List TableDefinition}
    (hdistinct : DistinctNames (definitions.map TableDefinition.name)) :
    DistinctNames ((properDefinitions definitions).map TableDefinition.name) :=
  List.Pairwise.sublist (List.filter_sublist.map _) hdistinct

theorem foldl_define_nil {definitions : List TableDefinition}
    (hdistinct : DistinctNames (definitions.map TableDefinition.name)) :
    definitions.foldl Catalog.define {} =
      ⟨(properDefinitions definitions).map definedTable,
        (properDefinitions definitions).flatMap definedKeys⟩ :=
  @foldl_define_of_distinctNames [] definitions hdistinct

/-- Catalogs of the same tables whose keys differ in the order of their
definitions only. -/
structure Catalog.Rearranges (left right : Catalog) (before after : List TableDefinition)
    (added : List PendingKey) : Prop where
  tables : Sql.Rearranges left.tables right.tables
  leftPending : left.pending = before.flatMap definedKeys ++ added
  rightPending : right.pending = after.flatMap definedKeys ++ added

/-- A column is added to the same table wherever that stands. -/
theorem Catalog.Rearranges.addColumn {left right : Catalog} {before after : List TableDefinition}
    {added : List PendingKey} (hsame : left.Rearranges right before after added)
    (addition : String × Clause) :
    ∃ more, (left.addColumn addition).Rearranges (right.addColumn addition) before after more := by
  rw [Catalog.addColumn.eq_def, Catalog.addColumn.eq_def, hsame.tables.findTable?_eq]
  split
  · rename_i column foreignKey _
    cases findTable? right.tables addition.1 with
    | none => exact ⟨added, hsame⟩
    | some table =>
      refine ⟨added ++ foreignKey.toList.map (⟨table.name, ·⟩),
        hsame.tables.modifyTable addition.1 fun _ => rfl, ?_, ?_⟩
      · dsimp only
        rw [hsame.leftPending, List.append_assoc]
      · dsimp only
        rw [hsame.rightPending, List.append_assoc]
  · exact ⟨added, hsame⟩

theorem Catalog.Rearranges.foldl_addColumn {left right : Catalog}
    {before after : List TableDefinition} {added : List PendingKey}
    (hsame : left.Rearranges right before after added) (actions : List (String × Clause)) :
    ∃ more, (actions.foldl Catalog.addColumn left).Rearranges
      (actions.foldl Catalog.addColumn right) before after more := by
  induction actions generalizing left right added with
  | nil => exact ⟨added, hsame⟩
  | cons addition rest ih =>
    obtain ⟨more, hnext⟩ := hsame.addColumn addition
    exact ih hnext

/-! ## Keys of different tables -/

/-- Two columns are alike to a foreign key that looks for its target. -/
def SameTarget (left right : Column) : Prop :=
  left.name = right.name ∧ left.isPrimaryKey = right.isPrimaryKey

/-- Two tables are alike to a foreign key that looks for its target. -/
def SameTargets (left right : Table) : Prop :=
  left.name = right.name ∧ List.Forall₂ SameTarget left.columns right.columns

theorem forall₂_modifyFirst {α : Type} {R : α → α → Prop} {change : α → α}
    (hrefl : ∀ element, R element element) (hchange : ∀ element, R (change element) element)
    (test : α → Bool) (list : List α) : List.Forall₂ R (modifyFirst test change list) list := by
  induction list with
  | nil => exact .nil
  | cons first rest ih =>
    rw [modifyFirst]
    split
    · exact .cons (hchange first) (List.forall₂_same.2 fun element _ => hrefl element)
    · exact .cons (hrefl first) ih

/-- A change of a column that keeps its name and its being a primary key is nothing to look
for. -/
theorem sameTargets_changeColumn {change : Column → Column}
    (hsame : ∀ column, SameTarget (change column) column) (tables : List Table)
    (table column : String) :
    List.Forall₂ SameTargets (changeColumn tables table column change) tables := by
  have hrefl (element : Table) : SameTargets element element :=
    ⟨rfl, List.forall₂_same.2 fun _ _ => ⟨rfl, rfl⟩⟩
  apply forall₂_modifyFirst hrefl
  intro element
  refine ⟨rfl, ?_⟩
  apply forall₂_modifyFirst _ hsame
  exact fun _ => ⟨rfl, rfl⟩

theorem meantColumn?_rel (lenient : Bool) {left right : Table} (hsame : SameTargets left right)
    (name : Option String) :
    Option.Rel SameTarget (meantColumn? lenient left name) (meantColumn? lenient right name) := by
  have hkey : Option.Rel SameTarget left.primaryKey? right.primaryKey? :=
    find?_rel (fun _ _ hcolumns => hcolumns.2) hsame.2
  cases name with
  | none => exact hkey
  | some name =>
    have hnamed : Option.Rel SameTarget (left.column? name) (right.column? name) :=
      find?_rel (fun _ _ hcolumns => by rw [hcolumns.1]) hsame.2
    apply or_rel hnamed
    cases lenient with
    | false => exact .none
    | true => exact hkey

/-- Tables that are alike to foreign keys resolve them alike. -/
theorem resolveTarget?_eq_of_sameTargets {left right : List Table}
    (hsame : List.Forall₂ SameTargets left right) (lenient : Bool) (foreignKey : ForeignKey) :
    resolveTarget? lenient left foreignKey = resolveTarget? lenient right foreignKey := by
  have hfound : Option.Rel SameTargets (findTable? left foreignKey.target)
      (findTable? right foreignKey.target) :=
    find?_rel (fun _ _ htables => by rw [htables.1]) hsame
  rw [resolveTarget?_eq_bind, resolveTarget?_eq_bind]
  apply bind_eq_of_rel hfound
  intro table other htables
  apply map_eq_of_rel (meantColumn?_rel lenient htables foreignKey.targetColumn)
  intro column key hcolumns
  rw [htables.1, hcolumns.1]

/-- Placing a key does not change where another one leads. -/
theorem resolveTarget?_placeForeignKey (lenient : Bool) (tables : List Table) (key : PendingKey)
    (foreignKey : ForeignKey) :
    resolveTarget? lenient (placeForeignKey lenient tables key) foreignKey =
      resolveTarget? lenient tables foreignKey := by
  rw [placeForeignKey]
  split
  · rfl
  · rename_i table column _
    have hsame (found : Column) : SameTarget (found.referTo table column) found := ⟨rfl, rfl⟩
    exact resolveTarget?_eq_of_sameTargets (sameTargets_changeColumn hsame tables _ _) lenient
      foreignKey

/-- Foreign keys of different tables may be placed in either order. -/
theorem placeForeignKey_comm {first second : PendingKey}
    (hdiffer : Text.sameName first.table second.table = false) (lenient : Bool)
    (tables : List Table) :
    placeForeignKey lenient (placeForeignKey lenient tables first) second =
      placeForeignKey lenient (placeForeignKey lenient tables second) first := by
  have hapart (table : Table) (hfirst : Text.sameName table.name first.table = true) :
      Text.sameName table.name second.table = false := by
    rw [Text.sameName_congr hfirst, hdiffer]
  have hleft := resolveTarget?_placeForeignKey lenient tables first second.foreignKey
  have hright := resolveTarget?_placeForeignKey lenient tables second first.foreignKey
  rw [placeForeignKey.eq_def lenient (placeForeignKey lenient tables first), hleft,
    placeForeignKey.eq_def lenient (placeForeignKey lenient tables second), hright,
    placeForeignKey, placeForeignKey]
  cases resolveTarget? lenient tables first.foreignKey with
  | none => rfl
  | some target =>
    cases resolveTarget? lenient tables second.foreignKey with
    | none => rfl
    | some other =>
      apply modifyFirst_comm
      · intro table hfound hother
        rw [hapart table hfound] at hother
        cases hother
      all_goals exact fun _ => rfl

/-- The foreign keys of definitions of distinct names may be placed in any order of
the definitions. -/
theorem foldl_definedKeys_of_perm {before after : List TableDefinition}
    (hperm : before.Perm after) (hdistinct : DistinctNames (before.map TableDefinition.name))
    (lenient : Bool) (tables : List Table) :
    (before.flatMap definedKeys).foldl (placeForeignKey lenient) tables =
      (after.flatMap definedKeys).foldl (placeForeignKey lenient) tables := by
  rw [List.foldl_flatMap, List.foldl_flatMap]
  apply hperm.foldl_eq'
  intro first hfirst second hsecond tables
  by_cases hsame : Text.sameName first.name second.name = true
  · rw [eq_of_distinctNames TableDefinition.name hdistinct hfirst hsecond hsame]
  · apply foldl_comm_of_forall
    intro key hkey other hother tables
    apply placeForeignKey_comm
    rw [table_of_mem_definedKeys hkey, table_of_mem_definedKeys hother]
    simpa using hsame

/-! ## Schemas -/

section Permuted

variable {left right : List Statement}
  (hperm : (tableDefinitions left).Perm (tableDefinitions right))
  (hdistinct : DistinctNames ((tableDefinitions left).map TableDefinition.name))
  (hadditions : additions left = additions right)

include hperm hdistinct hadditions

theorem catalogOf_rearranges :
    ∃ added, (catalogOf left).Rearranges (catalogOf right)
      (properDefinitions (tableDefinitions left)) (properDefinitions (tableDefinitions right))
        added := by
  have hproper : (properDefinitions (tableDefinitions left)).Perm
      (properDefinitions (tableDefinitions right)) := hperm.filter _
  have hdistinctRight := hdistinct.perm (hperm.map TableDefinition.name)
  have hdefined : Catalog.Rearranges ((tableDefinitions left).foldl Catalog.define {})
      ((tableDefinitions right).foldl Catalog.define {})
      (properDefinitions (tableDefinitions left)) (properDefinitions (tableDefinitions right))
      [] := by
    rw [foldl_define_nil hdistinct, foldl_define_nil hdistinctRight]
    refine ⟨⟨hproper.map definedTable, ?_⟩, (List.append_nil _).symm, (List.append_nil _).symm⟩
    rw [List.map_map]
    exact distinctNames_properDefinitions hdistinct
  rw [catalogOf, catalogOf, hadditions]
  exact hdefined.foldl_addColumn _

/-- Definitions in another order give the same base tables in another order. -/
theorem baseTables_rearranges : Rearranges (baseTables left) (baseTables right) := by
  obtain ⟨added, hcatalog⟩ := catalogOf_rearranges hperm hdistinct hadditions
  have hproper : (properDefinitions (tableDefinitions left)).Perm
      (properDefinitions (tableDefinitions right)) := hperm.filter _
  have hreferring : Rearranges
      ((catalogOf left).pending.foldl (placeForeignKey true) (catalogOf left).tables)
      ((catalogOf right).pending.foldl (placeForeignKey true) (catalogOf right).tables) := by
    rw [hcatalog.leftPending, hcatalog.rightPending, List.foldl_append, List.foldl_append,
      foldl_definedKeys_of_perm hproper (distinctNames_properDefinitions hdistinct)]
    have hplace {left right : List Table} (hsame : Rearranges left right) (key : PendingKey) :=
      hsame.placeForeignKey true key
    exact (hcatalog.tables.foldl hplace _).foldl hplace added
  rw [baseTables, baseTables, hadditions]
  exact (hreferring.foldl Rearranges.applyKey _).foldl Rearranges.applyForeignKeys _

theorem schemaTables_perm (hleft : viewDefinitions left = [])
    (hright : viewDefinitions right = []) : (schemaTables left).Perm (schemaTables right) := by
  have hnone (statements : List Statement) (hviews : viewDefinitions statements = []) :
      schemaTables statements = attachCardinalities (baseTables statements) := by
    simp [schemaTables, resolveViews, hviews, linkViews]
  rw [hnone left hleft, hnone right hright]
  exact (baseTables_rearranges hperm hdistinct hadditions).attachCardinalities

end Permuted

/-- A table without its colour, which depends on the tables in front of it. -/
def uncolored (table : Table) : Table :=
  { table with color := "" }

/-- The same schema with its tables in another order, colours apart. -/
structure SameButOrder (left right : Schema) : Prop where
  name : left.name = right.name
  format : left.format = right.format
  tables : (left.tables.map uncolored).Perm (right.tables.map uncolored)

theorem map_uncolored_assign (config : CategoryConfig) (tables : List Table) :
    (config.assign tables).map uncolored =
      tables.map fun table => { table with category := config.categoryOf table, color := "" } := by
  simp [CategoryConfig.assign, uncolored]

/-- Statements of different kinds may stand in any order: a schema depends on the
definitions of tables, the alterations, the definitions of views and the names
given to the schema, each in their own order.  Definitions of tables of distinct
names may be permuted as well where no view is defined; only the order of the
tables, and with it their colours, comes out different. -/
theorem schemaOfStatements?_reordered (config : CategoryConfig) {left right : List Statement}
    (halterations : alterations left = alterations right)
    (hviews : viewDefinitions left = viewDefinitions right)
    (hnamings : namings left = namings right) :
    (tableDefinitions left = tableDefinitions right →
      schemaOfStatements? config left = schemaOfStatements? config right) ∧
    (viewDefinitions left = [] →
      DistinctNames ((tableDefinitions left).map TableDefinition.name) →
        (tableDefinitions left).Perm (tableDefinitions right) →
          Option.Rel SameButOrder (schemaOfStatements? config left)
            (schemaOfStatements? config right)) := by
  have hadditions : additions left = additions right := by
    rw [additions_eq_flatMap, additions_eq_flatMap, halterations]
  have hname : schemaName left = schemaName right :=
    congrArg (fun names : List String => names.getLast?.getD defaultName) hnamings
  constructor
  · intro htables
    rw [schemaOfStatements?, schemaOfStatements?, hname,
      schemaTables_eq_of_kinds htables hviews hadditions]
  · intro hnone hdistinct hperm
    have htables := schemaTables_perm hperm hdistinct hadditions hnone (hviews ▸ hnone)
    rw [schemaOfStatements?, schemaOfStatements?]
    simp only [htables.isEmpty_eq]
    split
    · exact .none
    · refine .some ⟨hname, rfl, ?_⟩
      rw [map_uncolored_assign, map_uncolored_assign]
      exact htables.map _

/-- Users with a favourite post. -/
def usersDefinition : TableDefinition where
  name := "users"
  columns := [({ name := "id", type := "INT" } : Column).asPrimaryKey,
    { name := "favourite", type := "INT" }]
  foreignKeys := [⟨"favourite", "POSTS", none⟩]

/-- Posts with an author and a post before them. -/
def postsDefinition : TableDefinition where
  name := "posts"
  columns := [({ name := "id", type := "INT" } : Column).asPrimaryKey,
    { name := "author", type := "INT" }, { name := "before", type := "INT" }]
  foreignKeys := [⟨"author", "users", some "ID"⟩, ⟨"before", "posts", none⟩]

/-- A reviewer for posts, the key ahead of its column. -/
def reviewerAlteration : Alteration where
  table := "Posts"
  additions := [.foreignKeys [⟨"reviewer", "users", some "id"⟩],
    .column { name := "reviewer", type := "INT" } none]

/-- A script that alters posts first and defines users before them. -/
def usersFirst : List Statement :=
  [.alterTable reviewerAlteration, .createTable usersDefinition, .createTable postsDefinition,
    .nameSchema "blog"]

/-- The same statements with posts in front of users. -/
def postsFirst : List Statement :=
  [.createTable postsDefinition, .nameSchema "blog", .createTable usersDefinition,
    .alterTable reviewerAlteration]

theorem schemaOfStatements?_reordered_postsFirst :
    alterations usersFirst = alterations postsFirst ∧
      (tableDefinitions usersFirst).Perm (tableDefinitions postsFirst) ∧
      Option.Rel SameButOrder (schemaOfStatements? .standard usersFirst)
        (schemaOfStatements? .standard postsFirst) := by
  have halterations : alterations usersFirst = alterations postsFirst := rfl
  have hviews : viewDefinitions usersFirst = viewDefinitions postsFirst := rfl
  have hnamings : namings usersFirst = namings postsFirst := rfl
  have hdistinct : DistinctNames ((tableDefinitions usersFirst).map TableDefinition.name) := by
    rw [DistinctNames]
    decide
  have hperm : (tableDefinitions usersFirst).Perm (tableDefinitions postsFirst) := .swap _ _ _
  exact ⟨halterations, hperm,
    (schemaOfStatements?_reordered .standard halterations hviews hnamings).2 rfl hdistinct hperm⟩

end Sql

end Crowfoot
