import Crowfoot.Proofs.Schema.Counts
import Crowfoot.Proofs.Sql.Mentions

/-!
# Names spelled otherwise

Only definitions say how a name is spelled.  The names of tables and columns that
are used, to say what a statement adds to or what a foreign key joins, may be
written in other letters without any effect on the schema, whose references name
what they lead to as it is defined.
-/

namespace Crowfoot

/-- The names differ in the case of ASCII letters only. -/
def Respells (left right : String) : Prop :=
  Text.sameName left right = true

instance (left right : String) : Decidable (Respells left right) :=
  inferInstanceAs (Decidable (_ = true))

namespace Sql

open scoped Relator

/-! ## Statements -/

/-- The foreign keys are written in other letters. -/
structure ForeignKey.Respells (left right : ForeignKey) : Prop where
  column : Crowfoot.Respells left.column right.column
  target : Crowfoot.Respells left.target right.target
  targetColumn : Option.Rel Crowfoot.Respells left.targetColumn right.targetColumn

/-- The clauses are the same but for the letters of foreign keys and of the columns that keys are
made of. -/
inductive Clause.Respells : Clause → Clause → Prop
  | column (column : Column) {left right : Option ForeignKey}
      (hkey : Option.Rel ForeignKey.Respells left right) :
      Respells (.column column left) (.column column right)
  | primaryKey {left right : List String} (hnames : List.Forall₂ Crowfoot.Respells left right) :
      Respells (.primaryKey left) (.primaryKey right)
  | unique {left right : List String} (hnames : List.Forall₂ Crowfoot.Respells left right) :
      Respells (.unique left) (.unique right)
  | foreignKeys {left right : List ForeignKey}
      (hkeys : List.Forall₂ ForeignKey.Respells left right) :
      Respells (.foreignKeys left) (.foreignKeys right)

/-- The statements are the same but for the letters of names that are used and not defined. -/
inductive Statement.Respells : Statement → Statement → Prop
  | createTable (name : String) (columns : List Column) {left right : List ForeignKey}
      (hkeys : List.Forall₂ ForeignKey.Respells left right) :
      Respells (.createTable ⟨name, columns, left⟩) (.createTable ⟨name, columns, right⟩)
  | createView (definition : ViewDefinition) :
      Respells (.createView definition) (.createView definition)
  | alterTable {leftTable rightTable : String} {left right : List Clause}
      (htable : Crowfoot.Respells leftTable rightTable)
      (hadditions : List.Forall₂ Clause.Respells left right) :
      Respells (.alterTable ⟨leftTable, left⟩) (.alterTable ⟨rightTable, right⟩)
  | nameSchema (name : String) : Respells (.nameSchema name) (.nameSchema name)

/-! ## Catalogs -/

/-- The definitions are the same but for the letters of foreign keys. -/
structure TableDefinition.Respells (left right : TableDefinition) : Prop where
  name : left.name = right.name
  columns : left.columns = right.columns
  foreignKeys : List.Forall₂ ForeignKey.Respells left.foreignKeys right.foreignKeys

/-- The additions are the same but for the letters of names. -/
def AdditionRespells (left right : String × Clause) : Prop :=
  Crowfoot.Respells left.1 right.1 ∧ left.2.Respells right.2

/-- The waiting keys are written in other letters. -/
structure PendingKey.Respells (left right : PendingKey) : Prop where
  table : Crowfoot.Respells left.table right.table
  foreignKey : left.foreignKey.Respells right.foreignKey

/-- The catalogs have the same tables, and the same keys wait in other letters. -/
structure Catalog.Respells (left right : Catalog) : Prop where
  tables : left.tables = right.tables
  pending : List.Forall₂ PendingKey.Respells left.pending right.pending

section Script

variable {left right : List Statement} (hsame : List.Forall₂ Statement.Respells left right)

include hsame

theorem tableDefinitions_respelled :
    List.Forall₂ TableDefinition.Respells (tableDefinitions left) (tableDefinitions right) := by
  refine List.rel_filterMap (fun first second hstatement => ?_) hsame
  cases hstatement with
  | createTable name columns hkeys => exact .some ⟨rfl, rfl, hkeys⟩
  | _ => exact .none

theorem additions_respelled :
    List.Forall₂ AdditionRespells (additions left) (additions right) := by
  refine List.rel_flatMap hsame fun first second hstatement => ?_
  cases hstatement with
  | alterTable htable hadditions =>
    exact List.rel_map (fun _ _ hclause => ⟨htable, hclause⟩) hadditions
  | _ => exact .nil

theorem viewDefinitions_respelled : viewDefinitions left = viewDefinitions right := by
  rw [← List.forall₂_eq_eq_eq]
  refine List.rel_filterMap (fun first second hstatement => ?_) hsame
  cases hstatement with
  | createView definition => exact .some rfl
  | _ => exact .none

theorem namings_respelled : namings left = namings right := by
  rw [← List.forall₂_eq_eq_eq]
  refine List.rel_filterMap (fun first second hstatement => ?_) hsame
  cases hstatement with
  | nameSchema name => exact .some rfl
  | _ => exact .none

end Script

/-- Keys of one table wait in other letters. -/
theorem pendingOn_respelled (table : String) {left right : List ForeignKey}
    (hkeys : List.Forall₂ ForeignKey.Respells left right) :
    List.Forall₂ PendingKey.Respells (left.map (⟨table, ·⟩)) (right.map (⟨table, ·⟩)) :=
  List.rel_map (fun _ _ hkey => ⟨Text.sameName_refl table, hkey⟩) hkeys

section Steps

variable {left right : Catalog} (hcatalogs : left.Respells right)

include hcatalogs

theorem define_respelled {first second : TableDefinition} (hdefinition : first.Respells second) :
    (left.define first).Respells (right.define second) := by
  rw [Catalog.define, Catalog.define, hdefinition.columns]
  split
  · exact hcatalogs
  · rw [hdefinition.name, hcatalogs.tables]
    refine ⟨rfl, List.rel_append (List.rel_filter (fun old new hkey => ?_) hcatalogs.pending)
      (pendingOn_respelled _ hdefinition.foreignKeys)⟩
    have htest := Text.sameName_congr hkey.table second.name
    exact iff_of_eq (congrArg (fun same => (!same) = true) htest)

theorem addColumn_respelled {first second : String × Clause}
    (haddition : AdditionRespells first second) :
    (left.addColumn first).Respells (right.addColumn second) := by
  obtain ⟨firstTable, firstClause⟩ := first
  obtain ⟨secondTable, secondClause⟩ := second
  obtain ⟨htable, hclause⟩ := haddition
  cases hclause with
  | column column hkey =>
    rw [Catalog.addColumn, Catalog.addColumn, hcatalogs.tables, findTable?_congr htable]
    simp only
    split
    · exact hcatalogs
    · rename_i table _
      refine ⟨modifyTable_congr htable _ _, List.rel_append hcatalogs.pending ?_⟩
      cases hkey with
      | none => exact .nil
      | some hkey => exact pendingOn_respelled table.name (.cons hkey .nil)
  | _ => exact hcatalogs

end Steps

theorem catalogOf_respelled {left right : List Statement}
    (hsame : List.Forall₂ Statement.Respells left right) :
    (catalogOf left).Respells (catalogOf right) := by
  have hdefine : (Catalog.Respells ⇒ TableDefinition.Respells ⇒ Catalog.Respells)
      Catalog.define Catalog.define :=
    fun _ _ hcatalogs _ _ hdefinition => define_respelled hcatalogs hdefinition
  have haddColumn : (Catalog.Respells ⇒ AdditionRespells ⇒ Catalog.Respells)
      Catalog.addColumn Catalog.addColumn :=
    fun _ _ hcatalogs _ _ haddition => addColumn_respelled hcatalogs haddition
  have hdefined := List.rel_foldl hdefine (⟨rfl, .nil⟩ : Catalog.Respells {} {})
    (tableDefinitions_respelled hsame)
  exact List.rel_foldl haddColumn hdefined (additions_respelled hsame)

/-! ## Keys -/

section Keys

theorem resolveTarget?_respelled (lenient : Bool) (tables : List Table) {left right : ForeignKey}
    (hkey : left.Respells right) :
    resolveTarget? lenient tables left = resolveTarget? lenient tables right := by
  obtain ⟨_, leftTable, leftColumn⟩ := left
  obtain ⟨_, rightTable, rightColumn⟩ := right
  obtain ⟨-, htarget, hcolumn⟩ := hkey
  rw [resolveTarget?, resolveTarget?, findTable?_congr htarget]
  cases hcolumn with
  | none => rfl
  | some hname => simp only [column?_congr hname]

theorem placeForeignKey_respelled (lenient : Bool) (tables : List Table) {left right : PendingKey}
    (hkey : left.Respells right) :
    placeForeignKey lenient tables left = placeForeignKey lenient tables right := by
  rw [placeForeignKey, placeForeignKey, resolveTarget?_respelled lenient tables hkey.foreignKey]
  simp only [modifyTable_congr hkey.table, modifyColumn_congr hkey.foreignKey.column]

variable (tables : List Table) {left right : String × Clause}
  (haddition : AdditionRespells left right)

include haddition

theorem applyKey_respelled : applyKey tables left = applyKey tables right := by
  obtain ⟨leftTable, leftClause⟩ := left
  obtain ⟨rightTable, rightClause⟩ := right
  obtain ⟨htable, hclause⟩ := haddition
  cases hclause with
  | primaryKey hnames =>
    simp only [applyKey, modifyTable_congr htable]
    congr 1
    funext table
    exact foldl_eq_of_forall₂ hnames
      (fun table _ _ hname => modifyColumn_congr hname table Column.asPrimaryKey) table
  | unique hnames =>
    cases hnames with
    | nil => rfl
    | cons hname hrest =>
      cases hrest with
      | nil => simp only [applyKey, modifyTable_congr htable, modifyColumn_congr hname]
      | cons _ _ => rfl
  | _ => rfl

theorem applyForeignKeys_respelled :
    applyForeignKeys tables left = applyForeignKeys tables right := by
  obtain ⟨leftTable, leftClause⟩ := left
  obtain ⟨rightTable, rightClause⟩ := right
  obtain ⟨htable, hclause⟩ := haddition
  cases hclause with
  | foreignKeys hkeys =>
    exact foldl_eq_of_forall₂ hkeys
      (fun tables _ _ hkey => placeForeignKey_respelled false tables ⟨htable, hkey⟩) tables
  | _ => rfl

end Keys

/-- Scripts that differ in the letters of used names have the same base tables. -/
theorem baseTables_respelled {left right : List Statement}
    (hsame : List.Forall₂ Statement.Respells left right) : baseTables left = baseTables right := by
  obtain ⟨htables, hpending⟩ := catalogOf_respelled hsame
  have hadditions := additions_respelled hsame
  simp only [baseTables]
  rw [htables, foldl_eq_of_forall₂ hpending fun tables _ _ => placeForeignKey_respelled true tables,
    foldl_eq_of_forall₂ hadditions fun tables _ _ => applyKey_respelled tables,
    foldl_eq_of_forall₂ hadditions fun tables _ _ => applyForeignKeys_respelled tables]

/-! ## References -/

/-- The reference names a column of a defined table or of a defined view, in the letters of the
definitions. -/
def SpelledAsDefined (statements : List Statement) (tables : List Table)
    (reference : ColumnReference) : Prop :=
  (∃ entry ∈ declaredContents statements, entry.1 = reference.table ∧
    ∃ column ∈ entry.2, column.1 = reference.column) ∨
  ∃ definition ∈ viewDefinitions statements, definition.name = reference.table ∧
    ∃ view ∈ tables, view.isView = true ∧ view.name = reference.table ∧
      ∃ column ∈ view.columns, column.name = reference.column

section References

variable {statements : List Statement} (config : CategoryConfig)

/-- The base tables of a schema hold what is declared. -/
theorem contents_assign_schemaTables (hparsed : ∀ statement ∈ statements, statement.IsParsed) :
    contents ((config.assign (schemaTables statements)).filter fun table => !table.isView) =
      declaredContents statements := by
  have hdeclared : ∀ statement ∈ statements, statement.IsDeclared :=
    fun statement hmem => (hparsed statement hmem).isDeclared
  obtain ⟨finish, hfinish, hassign⟩ := assign_schemaTables config statements
  rw [hassign, finished_bases hdeclared hfinish, contents_finished hfinish,
    (baseTables_changed statements).contents_eq, contents_catalogOf fun definition hmem =>
      (tableDefinitions_isDeclared hdeclared definition hmem).names]

theorem spelledAsDefined_assign_schemaTables
    (hparsed : ∀ statement ∈ statements, statement.IsParsed) {table : Table}
    (htable : table ∈ config.assign (schemaTables statements)) {column : Column}
    (hcolumn : column ∈ table.columns) {reference : ColumnReference}
    (hreference : reference ∈ column.references) :
    SpelledAsDefined statements (config.assign (schemaTables statements)) reference := by
  have hdeclared : ∀ statement ∈ statements, statement.IsDeclared :=
    fun statement hmem => (hparsed statement hmem).isDeclared
  obtain ⟨target, htarget, hname, key, hkey, hkeyName, -⟩ :=
    (schemaTables_resolved hdeclared).assign config table htable column hcolumn reference hreference
  cases hview : target.isView with
  | false =>
    refine Or.inl ⟨(target.name, target.columns.map fun column => (column.name, column.type)), ?_,
      hname, (key.name, key.type), List.mem_map.2 ⟨key, hkey, rfl⟩, hkeyName⟩
    rw [← contents_assign_schemaTables config hparsed]
    exact List.mem_map.2 ⟨target, List.mem_filter.2 ⟨htarget, by rw [hview]; rfl⟩, rfl⟩
  | true =>
    obtain ⟨finish, hfinish, hassign⟩ := assign_schemaTables config statements
    obtain ⟨before, definition, after, hdefinitions, hdefined, -⟩ :=
      exists_definition_of_isView hdeclared hfinish (hassign ▸ htarget) hview
    exact Or.inr ⟨definition, by simp [hdefinitions], hdefined.trans hname, target, htarget, hview,
      hname, key, hkey, hkeyName⟩

end References

/-- Statements in which used names are written in other letters define the same schema, whose
references are spelled as what they lead to is defined. -/
theorem schemaOfStatements?_respelled (config : CategoryConfig) {left right : List Statement}
    (hparsed : ∀ statement ∈ left, statement.IsParsed)
    (hsame : List.Forall₂ Statement.Respells left right) :
    schemaOfStatements? config left = schemaOfStatements? config right ∧
      ∀ schema, schemaOfStatements? config left = some schema → ∀ table ∈ schema.tables,
        ∀ column ∈ table.columns, ∀ reference ∈ column.references,
          SpelledAsDefined left schema.tables reference := by
  refine ⟨schemaOfStatements?_eq_of_baseTables config (baseTables_respelled hsame)
    (viewDefinitions_respelled hsame) (namings_respelled hsame), ?_⟩
  intro schema hschema table htable column hcolumn reference hreference
  have htables : schema.tables = config.assign (schemaTables left) := by
    simp only [schemaOfStatements?] at hschema
    split at hschema
    · cases hschema
    · exact Option.some.inj hschema ▸ rfl
  rw [htables] at htable ⊢
  exact spelledAsDefined_assign_schemaTables config hparsed htable hcolumn hreference

/-- Tables with foreign keys and an added key, and views of one of them. -/
def partsScript : String :=
  "CREATE TABLE Parts (Id INT PRIMARY KEY);CREATE TABLE t (a INT REFERENCES PARTS(ID), b INT);" ++
    "ALTER TABLE T ADD UNIQUE (B), ADD FOREIGN KEY (B) REFERENCES PARTS;"

/-- The statements with the letters in which tables and columns are used. -/
def partsStatements (parts id table column : String) : List Statement :=
  [.createTable ⟨"Parts", [({ name := "Id", type := "INT" } : Column).asPrimaryKey], []⟩,
    .createTable ⟨"t", [{ name := "a", type := "INT" }, { name := "b", type := "INT" }],
      [⟨"a", parts, some id⟩]⟩,
    .alterTable ⟨table, [.unique [column], .foreignKeys [⟨column, parts, none⟩]]⟩] ++
    redefinedViews.map .createView

theorem partsStatements_isParsed :
    ∀ statement ∈ partsStatements "PARTS" "ID" "T" "B", statement.IsParsed := by
  have htables : partsStatements "PARTS" "ID" "T" "B" =
      Statement.ofScript partsScript.toList ++ redefinedViews.map .createView := by
    have hscript : Statement.ofScript partsScript.toList =
        (partsStatements "PARTS" "ID" "T" "B").take 3 := by decide +kernel
    rw [hscript]
    rfl
  rw [htables]
  refine List.forall_mem_append.2 ⟨ofScript_isParsed, fun statement hmem => ?_⟩
  have hin : statement ∈ Statement.ofScript redefinedScript.toList := by
    rw [ofScript_redefinedScript]
    exact List.mem_cons_of_mem _ hmem
  exact ofScript_isParsed statement hin

theorem partsStatements_respelled :
    List.Forall₂ Statement.Respells (partsStatements "PARTS" "ID" "T" "B")
      (partsStatements "parts" "id" "t" "b") := by
  have hnames : Respells "PARTS" "parts" ∧ Respells "ID" "id" ∧ Respells "T" "t" ∧
      Respells "B" "b" := by decide +kernel
  obtain ⟨hparts, hid, htable, hcolumn⟩ := hnames
  have hkeys : List.Forall₂ ForeignKey.Respells [⟨"a", "PARTS", some "ID"⟩]
      [⟨"a", "parts", some "id"⟩] := .cons ⟨Text.sameName_refl _, hparts, .some hid⟩ .nil
  have hadditions : List.Forall₂ Clause.Respells
      [.unique ["B"], .foreignKeys [⟨"B", "PARTS", none⟩]]
      [.unique ["b"], .foreignKeys [⟨"b", "parts", none⟩]] :=
    .cons (.unique (.cons hcolumn .nil))
      (.cons (.foreignKeys (.cons ⟨hcolumn, hparts, .none⟩ .nil)) .nil)
  have hviews : List.Forall₂ Statement.Respells (redefinedViews.map .createView)
      (redefinedViews.map .createView) := by
    rw [List.forall₂_same, List.forall_mem_map]
    exact fun definition _ => .createView definition
  exact .cons (.createTable _ _ .nil) (.cons (.createTable _ _ hkeys)
    (.cons (.alterTable htable hadditions) hviews))

theorem schemaOfStatements?_partsStatements_respelled :
    ∃ schema, schemaOfStatements? .standard (partsStatements "PARTS" "ID" "T" "B") = some schema ∧
      schemaOfStatements? .standard (partsStatements "parts" "id" "t" "b") = some schema ∧
      ∀ table ∈ schema.tables, ∀ column ∈ table.columns, ∀ reference ∈ column.references,
        SpelledAsDefined (partsStatements "PARTS" "ID" "T" "B") schema.tables reference := by
  have hsome : (schemaOfStatements? .standard
      (partsStatements "PARTS" "ID" "T" "B")).isSome = true := by decide +kernel
  obtain ⟨schema, hschema⟩ := Option.isSome_iff_exists.1 hsome
  obtain ⟨hsame, hspelled⟩ := schemaOfStatements?_respelled .standard partsStatements_isParsed
    partsStatements_respelled
  exact ⟨schema, hschema, hsame ▸ hschema, hspelled schema hschema⟩

end Sql

end Crowfoot
