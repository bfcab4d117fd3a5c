import Crowfoot.Proofs.Sql.LastKeys
import Mathlib.Logic.Relation

/-!
# Dangling declarations

A declaration dangles if what it speaks of is not there: the table that it alters,
the column that it makes a key, or either end of a foreign key.  What is there is
settled by definitions and added columns before any key is looked at, so a dangling
declaration changes nothing, whatever stands before it and behind it, and may as
well be deleted.
-/

namespace Crowfoot

namespace Sql

/-! ## Keys that lead somewhere -/

/-- The foreign key leads from a column that is there to where another one is given for it. -/
def PendingKey.isLive (target : ForeignKey → Option (String × String)) (tables : List Table)
    (key : PendingKey) : Bool :=
  (target key.foreignKey).isSome && (findColumn? tables key.table key.foreignKey.column).isSome

section Live

variable {target : ForeignKey → Option (String × String)} {tables placed : List Table}

/-- A foreign key that is not live changes nothing. -/
theorem pointKey_of_not_isLive {key : PendingKey} (hdead : key.isLive target tables = false)
    (houtline : outline placed = outline tables) : pointKey target placed key = placed := by
  cases htarget : target key.foreignKey with
  | none => exact pointKey_of_none htarget placed
  | some found =>
    apply changeColumn_eq_self
    apply findColumn?_eq_none_of_outline_eq houtline
    simpa [PendingKey.isLive, htarget] using hdead

theorem foldl_pointKey_filter (keys : List PendingKey)
    (houtline : outline placed = outline tables) :
    keys.foldl (pointKey target) placed =
      (keys.filter (·.isLive target tables)).foldl (pointKey target) placed := by
  induction keys generalizing placed with
  | nil => rfl
  | cons key rest ih =>
    have hstep : outline (pointKey target placed key) = outline tables :=
      (outline_changeColumn (pointTo_name _) _ _ _).trans houtline
    rw [List.foldl_cons, ih hstep, List.filter_cons]
    split
    · rfl
    · rename_i hdead
      rw [pointKey_of_not_isLive ((Bool.not_eq_true _).mp hdead) houtline]

/-- Of foreign keys only those count that are live. -/
theorem foldl_pointKey_eq_of_filter {keys others : List PendingKey}
    (hlive : keys.filter (·.isLive target tables) = others.filter (·.isLive target tables))
    (houtline : outline placed = outline tables) :
    keys.foldl (pointKey target) placed = others.foldl (pointKey target) placed := by
  rw [foldl_pointKey_filter keys houtline, foldl_pointKey_filter others houtline, hlive]

end Live

/-! ## Catalogs with the same live keys -/

/-- Catalogs of the same tables and the same live foreign keys. -/
structure Catalog.SameLive (live : PendingKey → Bool) (left right : Catalog) : Prop where
  tables : left.tables = right.tables
  pending : left.pending.filter live = right.pending.filter live

section SameLive

variable {live : PendingKey → Bool} {left right : Catalog}

theorem Catalog.SameLive.refl (live : PendingKey → Bool) (catalog : Catalog) :
    catalog.SameLive live catalog :=
  ⟨rfl, rfl⟩

/-- Definitions of the same live keys leave catalogs with the same live keys. -/
theorem Catalog.SameLive.define (hsame : left.SameLive live right)
    {definition other : TableDefinition} (hname : definition.name = other.name)
    (hcolumns : definition.columns = other.columns)
    (hkeys : (definedKeys definition).filter live = (definedKeys other).filter live) :
    (left.define definition).SameLive live (right.define other) := by
  rw [Catalog.define, Catalog.define, hcolumns]
  split
  · exact hsame
  · constructor
    · dsimp only
      rw [hsame.tables, hname]
    · dsimp only
      rw [List.filter_append, List.filter_append, List.filter_filter, List.filter_filter,
        ← definedKeys, ← definedKeys, hkeys, hname]
      simp only [Bool.and_comm (live _), ← List.filter_filter, hsame.pending]

/-- A column that is added leaves catalogs with the same live keys. -/
theorem Catalog.SameLive.addColumn (hsame : left.SameLive live right)
    (addition : String × Clause) :
    (left.addColumn addition).SameLive live (right.addColumn addition) := by
  rw [Catalog.addColumn.eq_def, Catalog.addColumn.eq_def, hsame.tables]
  split
  · split
    · exact hsame
    · refine ⟨rfl, ?_⟩
      dsimp only
      rw [List.filter_append, List.filter_append, hsame.pending]
  · exact hsame

theorem Catalog.SameLive.foldl_define (hsame : left.SameLive live right)
    (definitions : List TableDefinition) :
    (definitions.foldl Catalog.define left).SameLive live
      (definitions.foldl Catalog.define right) :=
  List.foldl_rel hsame fun _ _ _ _ hsame => hsame.define rfl rfl rfl

theorem Catalog.SameLive.foldl_addColumn (hsame : left.SameLive live right)
    (added : List (String × Clause)) :
    (added.foldl Catalog.addColumn left).SameLive live
      (added.foldl Catalog.addColumn right) :=
  List.foldl_rel hsame fun addition _ _ _ hsame => hsame.addColumn addition

end SameLive

/-! ## What dangles -/

section Dangling

variable (statements : List Statement)

/-- No definition with a column defines the table. -/
def IsUndefined (table : String) : Prop :=
  ∀ definition ∈ properDefinitions (tableDefinitions statements),
    Text.sameName definition.name table = false

/-- The table, if there is one, lacks the column after all columns have been added. -/
def LacksColumn (table column : String) : Prop :=
  findColumn? (catalogOf statements).tables table column = none

instance (table : String) : Decidable (IsUndefined statements table) :=
  inferInstanceAs (Decidable (∀ definition ∈ properDefinitions (tableDefinitions statements),
    Text.sameName definition.name table = false))

instance (table column : String) : Decidable (LacksColumn statements table column) :=
  inferInstanceAs (Decidable (findColumn? (catalogOf statements).tables table column = none))

/-- The table has no primary key after all keys have been added. -/
def LacksPrimaryKey (table : String) : Prop :=
  (findTable? (baseTables statements) table).bind Table.primaryKey? = none

/-- A foreign key of a definition or of an added column without one of its ends. -/
inductive DanglingKey (table : String) (key : ForeignKey) : Prop
  | parent (hparent : IsUndefined statements key.target) : DanglingKey table key
  | child (hchild : LacksColumn statements table key.column) : DanglingKey table key

/-- An added foreign key without one of its ends. -/
inductive DanglingAddedKey (table : String) (key : ForeignKey) : Prop
  | parent (hparent : IsUndefined statements key.target) : DanglingAddedKey table key
  | child (hchild : LacksColumn statements table key.column) : DanglingAddedKey table key
  | column {name : String} (hnamed : key.targetColumn = some name)
      (hcolumn : LacksColumn statements key.target name) : DanglingAddedKey table key
  | primaryKey (homitted : key.targetColumn = none)
      (hkey : LacksPrimaryKey statements key.target) : DanglingAddedKey table key

/-- An addition to a table that is not there, a key on a column that is not there, or an addition
of no foreign keys. -/
inductive DanglingClause (table : String) : Clause → Prop
  | table (clause : Clause) (htable : IsUndefined statements table) : DanglingClause table clause
  | unique {name : String} (hcolumn : LacksColumn statements table name) :
      DanglingClause table (.unique [name])
  | primaryKey {name : String} (hcolumn : LacksColumn statements table name) :
      DanglingClause table (.primaryKey [name])
  | foreignKeys : DanglingClause table (.foreignKeys [])

/-- A clause is deleted, or a foreign key of one. -/
inductive DeletesFromClause (table : String) : List Clause → List Clause → Prop
  | clause {clause : Clause} (hdangling : DanglingClause statements table clause) :
      DeletesFromClause table [clause] []
  | columnKey (column : Column) {key : ForeignKey} (hdangling : DanglingKey statements table key) :
      DeletesFromClause table [.column column (some key)] [.column column none]
  | addedKey (front back : List ForeignKey) {key : ForeignKey}
      (hdangling : DanglingAddedKey statements table key) :
      DeletesFromClause table [.foreignKeys (front ++ key :: back)] [.foreignKeys (front ++ back)]

/-- A dangling declaration is deleted from a statement, or an alteration without additions. -/
inductive DeletesFromStatement : List Statement → List Statement → Prop
  | addition (front back : List Clause) {table : String} {before after : List Clause}
      (hdeletes : DeletesFromClause statements table before after) :
      DeletesFromStatement [.alterTable ⟨table, front ++ before ++ back⟩]
        [.alterTable ⟨table, front ++ after ++ back⟩]
  | definedKey (columns : List Column) (front back : List ForeignKey) {name : String}
      {key : ForeignKey} (hdangling : DanglingKey statements name key) :
      DeletesFromStatement [.createTable ⟨name, columns, front ++ key :: back⟩]
        [.createTable ⟨name, columns, front ++ back⟩]
  | alteration (table : String) : DeletesFromStatement [.alterTable ⟨table, []⟩] []

end Dangling

/-- One dangling declaration is deleted from a list of statements. -/
inductive DeletesDangling : List Statement → List Statement → Prop
  | within (front back : List Statement) {before after : List Statement}
      (hdeletes : DeletesFromStatement (front ++ before ++ back) before after) :
      DeletesDangling (front ++ before ++ back) (front ++ after ++ back)

/-! ## Dangling keys are not live -/

theorem findColumn?_congr {left right : String} (hsame : Text.sameName left right = true)
    (tables : List Table) (column : String) :
    findColumn? tables left column = findColumn? tables right column := by
  rw [findColumn?, findTable?_congr hsame, findColumn?]

theorem map_name_foldl_addColumn (added : List (String × Clause)) (catalog : Catalog) :
    (added.foldl Catalog.addColumn catalog).tables.map Table.name =
      catalog.tables.map Table.name :=
  List.foldlRecOn (motive := fun grown : Catalog =>
    grown.tables.map Table.name = catalog.tables.map Table.name) added Catalog.addColumn rfl
    fun grown hgrown addition _ => (map_name_addColumn grown addition).trans hgrown

/-- Without a column that it means a foreign key leads nowhere. -/
theorem resolveTarget?_eq_none {lenient : Bool} {tables : List Table} {key : ForeignKey}
    (hnone : ((findTable? tables key.target).bind fun table =>
      meantColumn? lenient table key.targetColumn) = none) :
    resolveTarget? lenient tables key = none := by
  rw [resolveTarget?_eq_bind]
  cases hfound : findTable? tables key.target with
  | none => rfl
  | some table =>
    rw [hfound, Option.bind_some] at hnone
    rw [Option.bind_some, hnone, Option.map_none]

section Statements

variable {statements : List Statement} {table : String}

theorem IsUndefined.findTable?_eq_none (hundefined : IsUndefined statements table) :
    findTable? (catalogOf statements).tables table = none := by
  have hdefined : findTable? ((tableDefinitions statements).foldl Catalog.define {}).tables table =
      none := by
    rw [tables_foldl_define, findTable?, List.find?_eq_none, List.forall_mem_map]
    intro definition hmem
    exact ne_true_of_eq_false
      (hundefined definition (mem_of_mem_latest TableDefinition.name hmem))
  exact findTable?_eq_none_of_map_name_eq (map_name_foldl_addColumn _ _) hdefined

theorem IsUndefined.lacksColumn (hundefined : IsUndefined statements table) (column : String) :
    LacksColumn statements table column :=
  findColumn?_eq_none_of_findTable? hundefined.findTable?_eq_none column

/-- The foreign keys of definitions and added columns that are live. -/
def isLiveKey (statements : List Statement) : PendingKey → Bool :=
  PendingKey.isLive (resolveTarget? true (catalogOf statements).tables)
    (catalogOf statements).tables

/-- The added foreign keys that are live. -/
def isLiveAddedKey (statements : List Statement) : PendingKey → Bool :=
  PendingKey.isLive (resolveTarget? false (baseTables statements)) (catalogOf statements).tables

theorem isLiveKey_of_dangling {owner : String} {key : ForeignKey}
    (hdangling : DanglingKey statements table key)
    (howner : Text.sameName owner table = true) : isLiveKey statements ⟨owner, key⟩ = false := by
  rw [isLiveKey, PendingKey.isLive, findColumn?_congr howner]
  cases hdangling with
  | parent hparent => rw [resolveTarget?_eq_bind, hparent.findTable?_eq_none]; rfl
  | child hchild => rw [hchild]; exact Bool.and_false _

theorem isLiveAddedKey_of_dangling {key : ForeignKey}
    (hdangling : DanglingAddedKey statements table key) :
    isLiveAddedKey statements ⟨table, key⟩ = false := by
  have houtline := (baseTables_changed statements).outline_eq
  rw [isLiveAddedKey, PendingKey.isLive]
  cases hdangling with
  | parent hparent =>
    have hnone := findTable?_eq_none_of_map_name_eq (map_name_of_outline_eq houtline)
      hparent.findTable?_eq_none
    rw [resolveTarget?_eq_none (by rw [hnone, Option.bind_none])]
    rfl
  | child hchild => rw [hchild]; exact Bool.and_false _
  | @column name hnamed hcolumn =>
    have hlacks := findColumn?_eq_none_of_outline_eq houtline hcolumn
    have hmeant (found : Table) : meantColumn? false found (some name) = found.column? name :=
      Option.or_none
    rw [resolveTarget?_eq_none (by simp only [hnamed, hmeant]; exact hlacks)]
    rfl
  | primaryKey homitted hkey =>
    rw [resolveTarget?_eq_none (by rw [homitted]; exact hkey)]
    rfl

/-! ## Deletions -/

/-- Scripts have the same base tables if they differ in keys that are not live only. -/
theorem baseTables_eq_of_sameLive {other : List Statement}
    (hcatalog : (catalogOf statements).SameLive (isLiveKey statements) (catalogOf other))
    (hkeys : ∀ tables, outline tables = outline (catalogOf statements).tables →
      (additions statements).foldl applyKey tables = (additions other).foldl applyKey tables)
    (hadded : (addedKeys (additions statements)).filter (isLiveAddedKey statements) =
      (addedKeys (additions other)).filter (isLiveAddedKey statements)) :
    baseTables statements = baseTables other := by
  have hreferring : (catalogOf statements).pending.foldl (placeForeignKey true)
      (catalogOf statements).tables =
        (catalogOf other).pending.foldl (placeForeignKey true) (catalogOf other).tables := by
    rw [← hcatalog.tables, foldl_placeForeignKey_eq_pointKey, foldl_placeForeignKey_eq_pointKey,
      foldl_pointKey_eq_of_filter hcatalog.pending rfl]
  have houtline := (foldl_placeForeignKey_changed true (catalogOf statements).tables
    (catalogOf statements).pending).outline_eq
  have hkeyed : keyedTables statements = keyedTables other := by
    rw [keyedTables, hkeys _ houtline, hreferring, keyedTables]
  calc
    baseTables statements
      = (addedKeys (additions statements)).foldl
          (pointKey (resolveTarget? false (baseTables statements))) (keyedTables statements) :=
        baseTables_eq_foldl_pointKey statements
    _ = (addedKeys (additions other)).foldl
          (pointKey (resolveTarget? false (baseTables statements))) (keyedTables statements) :=
        foldl_pointKey_eq_of_filter hadded (keyedTables_changed statements).outline_eq
    _ = (addedKeys (additions other)).foldl (placeForeignKey false) (keyedTables other) := by
        rw [resolveTarget?_baseTables, ← foldl_placeForeignKey_eq_pointKey, hkeyed]
    _ = baseTables other := (baseTables_eq_foldl_placeForeignKey other).symm

section Clauses

variable {before after : List Clause} (hdeletes : DeletesFromClause statements table before after)

include hdeletes

theorem DeletesFromClause.foldl_addColumn {left right : Catalog}
    (hsame : left.SameLive (isLiveKey statements) right)
    (hnames : left.tables.map Table.name = (catalogOf statements).tables.map Table.name) :
    ((before.map (table, ·)).foldl Catalog.addColumn left).SameLive (isLiveKey statements)
      ((after.map (table, ·)).foldl Catalog.addColumn right) := by
  cases hdeletes with
  | @clause clause hdangling =>
    have hstay : left.addColumn (table, clause) = left := by
      cases hdangling with
      | table clause htable =>
        have hnone := findTable?_eq_none_of_map_name_eq hnames htable.findTable?_eq_none
        cases clause with
        | column declared foreignKey => simp only [Catalog.addColumn, hnone]
        | _ => rfl
      | _ => rfl
    rw [List.map_singleton, List.foldl_cons, hstay]
    exact hsame
  | @columnKey declared key hdangling =>
    simp only [List.map_singleton, List.foldl_cons, List.foldl_nil, Catalog.addColumn,
      ← hsame.tables]
    cases hfound : findTable? left.tables table with
    | none => exact hsame
    | some found =>
      refine ⟨rfl, ?_⟩
      have howner := List.find?_some hfound
      have hdead := isLiveKey_of_dangling hdangling howner
      dsimp only
      rw [List.filter_append, hsame.pending]
      simp [hdead]
  | addedKey front back hdangling => exact hsame

theorem DeletesFromClause.foldl_applyKey {tables : List Table}
    (houtline : outline tables = outline (catalogOf statements).tables) :
    (before.map (table, ·)).foldl applyKey tables =
      (after.map (table, ·)).foldl applyKey tables := by
  cases hdeletes with
  | @clause clause hdangling =>
    rw [List.map_singleton, List.foldl_cons]
    have hlacks {column : String} (hcolumn : LacksColumn statements table column)
        (change : Column → Column) : changeColumn tables table column change = tables :=
      changeColumn_eq_self (findColumn?_eq_none_of_outline_eq houtline hcolumn) change
    cases hdangling with
    | table clause htable =>
      have hnone := findTable?_eq_none_of_map_name_eq (map_name_of_outline_eq houtline)
        htable.findTable?_eq_none
      rw [applyKey.eq_def]
      split
      · exact modifyTable_eq_self hnone _
      · exact modifyTable_eq_self hnone _
      · rfl
    | unique hcolumn => exact hlacks hcolumn Column.asUnique
    | primaryKey hcolumn => exact hlacks hcolumn Column.asPrimaryKey
    | foreignKeys => rfl
  | columnKey declared hdangling => rfl
  | addedKey front back hdangling => rfl

theorem DeletesFromClause.addedKeys_filter :
    (addedKeys (before.map (table, ·))).filter (isLiveAddedKey statements) =
      (addedKeys (after.map (table, ·))).filter (isLiveAddedKey statements) := by
  cases hdeletes with
  | @clause clause hdangling =>
    cases hdangling with
    | table clause htable =>
      have hdead (key : ForeignKey) :=
        isLiveAddedKey_of_dangling (.child (htable.lacksColumn key.column))
      simp [addedKeys, hdead]
    | unique hcolumn => rfl
    | primaryKey hcolumn => rfl
    | foreignKeys => rfl
  | columnKey declared hdangling => rfl
  | addedKey front back hdangling =>
    simp [addedKeys, Clause.constraintKeys, isLiveAddedKey_of_dangling hdangling]

end Clauses

theorem addedKeys_append (front back : List (String × Clause)) :
    addedKeys (front ++ back) = addedKeys front ++ addedKeys back :=
  List.flatMap_append

theorem outline_foldl_applyKey (added : List (String × Clause)) (tables : List Table) :
    outline (added.foldl applyKey tables) = outline tables :=
  List.foldlRecOn (motive := fun keyed : List Table => outline keyed = outline tables) added
    applyKey rfl fun keyed hkeyed addition _ =>
      (applyKey_changed keyed addition).outline_eq.trans hkeyed

/-- Deleting a dangling declaration from the additions leaves the base tables. -/
theorem DeletesFromClause.baseTables_eq {other : List Statement} {before after : List Clause}
    (hdeletes : DeletesFromClause statements table before after)
    (htables : tableDefinitions statements = tableDefinitions other)
    (front back : List (String × Clause))
    (hleft : additions statements = front ++ before.map (table, ·) ++ back)
    (hright : additions other = front ++ after.map (table, ·) ++ back) :
    baseTables statements = baseTables other := by
  have hnames : (front.foldl Catalog.addColumn
      ((tableDefinitions statements).foldl Catalog.define {})).tables.map Table.name =
        (catalogOf statements).tables.map Table.name := by
    rw [catalogOf, map_name_foldl_addColumn, map_name_foldl_addColumn]
  apply baseTables_eq_of_sameLive
  · have hstart := Catalog.SameLive.refl (isLiveKey statements) (front.foldl Catalog.addColumn
      ((tableDefinitions statements).foldl Catalog.define {}))
    have hsame := (hdeletes.foldl_addColumn hstart hnames).foldl_addColumn back
    simpa only [catalogOf, hleft, hright, ← htables, List.foldl_append] using hsame
  · intro tables houtline
    rw [hleft, hright, List.foldl_append, List.foldl_append, List.foldl_append, List.foldl_append,
      hdeletes.foldl_applyKey ((outline_foldl_applyKey front tables).trans houtline)]
  · rw [hleft, hright]
    simp only [addedKeys_append, List.filter_append, hdeletes.addedKeys_filter]

/-- Deleting a dangling foreign key from a definition leaves the base tables. -/
theorem baseTables_eq_of_definedKey {other : List Statement} {name : String} {key : ForeignKey}
    (hdangling : DanglingKey statements name key) (front back : List TableDefinition)
    (columns : List Column) (first rest : List ForeignKey)
    (hleft : tableDefinitions statements = front ++ ⟨name, columns, first ++ key :: rest⟩ :: back)
    (hright : tableDefinitions other = front ++ ⟨name, columns, first ++ rest⟩ :: back)
    (hadditions : additions statements = additions other) :
    baseTables statements = baseTables other := by
  have hdead := isLiveKey_of_dangling hdangling (Text.sameName_refl name)
  apply baseTables_eq_of_sameLive
  · have hstart := Catalog.SameLive.refl (isLiveKey statements) (front.foldl Catalog.define {})
    have hdefined : Catalog.SameLive (isLiveKey statements)
        ((front.foldl Catalog.define {}).define ⟨name, columns, first ++ key :: rest⟩)
        ((front.foldl Catalog.define {}).define ⟨name, columns, first ++ rest⟩) :=
      hstart.define rfl rfl (by simp [definedKeys, hdead])
    have hsame := (hdefined.foldl_define back).foldl_addColumn (additions statements)
    simpa only [catalogOf, hleft, hright, ← hadditions, List.foldl_append, List.foldl_cons]
      using hsame
  · intro tables _
    rw [hadditions]
  · rw [hadditions]

end Statements

/-! ## Schemas -/

section Deletion

variable {left right : List Statement}

/-- Deleting a dangling declaration leaves the base tables. -/
theorem DeletesDangling.baseTables_eq (hdeletes : DeletesDangling left right) :
    baseTables left = baseTables right := by
  obtain ⟨front, back, hdeletes⟩ := hdeletes
  cases hdeletes with
  | @addition first rest table before after hdeletes =>
    apply hdeletes.baseTables_eq _ (additions front ++ first.map (table, ·))
      (rest.map (table, ·) ++ additions back)
    · simp [additions]
    · simp [additions]
    · simp [tableDefinitions]
  | definedKey columns first rest hdangling =>
    apply baseTables_eq_of_definedKey hdangling (tableDefinitions front) (tableDefinitions back)
      columns first rest
    · simp [tableDefinitions]
    · simp [tableDefinitions]
    · simp [additions]
  | alteration table =>
    have htables : tableDefinitions (front ++ [.alterTable ⟨table, []⟩] ++ back) =
        tableDefinitions (front ++ [] ++ back) := by
      simp [tableDefinitions]
    have hadditions : additions (front ++ [.alterTable ⟨table, []⟩] ++ back) =
        additions (front ++ [] ++ back) := by
      simp [additions]
    simp only [baseTables, catalogOf, htables, hadditions]

theorem DeletesDangling.viewDefinitions_eq (hdeletes : DeletesDangling left right) :
    viewDefinitions left = viewDefinitions right := by
  obtain ⟨front, back, hdeletes⟩ := hdeletes
  cases hdeletes <;> simp [viewDefinitions]

theorem DeletesDangling.namings_eq (hdeletes : DeletesDangling left right) :
    namings left = namings right := by
  obtain ⟨front, back, hdeletes⟩ := hdeletes
  cases hdeletes <;> simp [namings]

/-- Dangling declarations may be deleted, one after the other, and the schema stays as it is. -/
theorem schemaOfStatements?_deletesDangling (config : CategoryConfig)
    (hdeletes : Relation.ReflTransGen DeletesDangling left right) :
    schemaOfStatements? config left = schemaOfStatements? config right := by
  induction hdeletes with
  | refl => rfl
  | tail _ hstep ih =>
    rw [ih]
    exact schemaOfStatements?_eq_of_baseTables config hstep.baseTables_eq
      hstep.viewDefinitions_eq hstep.namings_eq

end Deletion

/-- Towns with a twin, with more foreign keys and with additions in front of a foreign key. -/
def twinsScript (keys : List ForeignKey) (clauses : List Clause) : List Statement :=
  [.createTable ⟨"towns", [({ name := "id", type := "INT" } : Column).asPrimaryKey,
      { name := "twin", type := "INT" }], ⟨"twin", "Towns", some "ID"⟩ :: keys⟩,
    .alterTable ⟨"TOWNS", clauses ++ [.foreignKeys [⟨"twin", "towns", none⟩]]⟩]

theorem deletesDangling_twinsScript :
    Relation.ReflTransGen DeletesDangling
      (twinsScript [⟨"twin", "ghosts", none⟩]
        [.unique ["name"], .foreignKeys [⟨"twin", "towns", some "code"⟩]])
      (twinsScript [] []) := by
  have hdefined : DeletesDangling
      (twinsScript [⟨"twin", "ghosts", none⟩]
        [.unique ["name"], .foreignKeys [⟨"twin", "towns", some "code"⟩]])
      (twinsScript [] [.unique ["name"], .foreignKeys [⟨"twin", "towns", some "code"⟩]]) :=
    DeletesDangling.within [] [_] (.definedKey _ [_] [] (.parent (by decide)))
  have hunique : DeletesDangling
      (twinsScript [] [.unique ["name"], .foreignKeys [⟨"twin", "towns", some "code"⟩]])
      (twinsScript [] [.foreignKeys [⟨"twin", "towns", some "code"⟩]]) :=
    DeletesDangling.within [_] [] (.addition [] [_, _] (.clause (.unique (by decide))))
  have hadded : DeletesDangling
      (twinsScript [] [.foreignKeys [⟨"twin", "towns", some "code"⟩]])
      (twinsScript [] [.foreignKeys []]) :=
    DeletesDangling.within [_] [] (.addition [] [_] (.addedKey [] [] (.column rfl (by decide))))
  have hnone : DeletesDangling (twinsScript [] [.foreignKeys []]) (twinsScript [] []) :=
    DeletesDangling.within [_] [] (.addition [] [_] (.clause .foreignKeys))
  exact .head hdefined (.head hunique (.head hadded (.single hnone)))

theorem schemaOfStatements?_deletesDangling_twinsScript :
    Relation.ReflTransGen DeletesDangling
        (twinsScript [⟨"twin", "ghosts", none⟩]
          [.unique ["name"], .foreignKeys [⟨"twin", "towns", some "code"⟩]])
        (twinsScript [] []) ∧
      schemaOfStatements? .standard (twinsScript [⟨"twin", "ghosts", none⟩]
          [.unique ["name"], .foreignKeys [⟨"twin", "towns", some "code"⟩]]) =
        schemaOfStatements? .standard (twinsScript [] []) :=
  ⟨deletesDangling_twinsScript,
    schemaOfStatements?_deletesDangling .standard deletesDangling_twinsScript⟩

end Sql

end Crowfoot
