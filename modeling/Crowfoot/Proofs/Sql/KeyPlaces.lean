import Crowfoot.Proofs.Sql.EarlyChanges

/-!
# Unique and foreign keys in either place

A column may be marked unique where its table is defined or at the end of the
script: being unique is nothing that any other declaration looks at.  So may a
foreign key to a named column that is there, if its own column has no other one: it
leads to the same column before and after keys are added, and with no other foreign
key on its column it does not matter when it is put there.
-/

namespace Crowfoot

namespace Sql

/-- The definition with a foreign key among its own ones. -/
def TableDefinition.listing (definition : TableDefinition) (place : Nat) (key : ForeignKey) :
    TableDefinition :=
  { definition with
    foreignKeys := definition.foreignKeys.take place ++ key :: definition.foreignKeys.drop place }

/-- The script with a foreign key among those of the definition. -/
def TableScript.listing (script : TableScript) (place : Nat) (key : ForeignKey) : TableScript :=
  { script with definition := script.definition.listing place key }

/-- No foreign key of the table names the column, be it declared with the table, with an added
column or apart. -/
def TableScript.LacksKey (script : TableScript) (name : String) : Prop :=
  ∀ key ∈ definedKeysFor script.statements script.definition.name ++
      addedKeysFor script.statements script.definition.name,
    Text.sameName name key.column = false

instance (script : TableScript) (name : String) : Decidable (script.LacksKey name) :=
  inferInstanceAs (Decidable (∀ key ∈ definedKeysFor script.statements script.definition.name ++
      addedKeysFor script.statements script.definition.name,
    Text.sameName name key.column = false))

/-! ## Targets -/

/-- A change of a column that is nothing to look for does not change where foreign keys lead. -/
theorem resolveTarget?_changeColumn {change : Column → Column}
    (hsame : ∀ column, SameTarget (change column) column) (lenient : Bool) (tables : List Table)
    (table column : String) :
    resolveTarget? lenient (changeColumn tables table column change) =
      resolveTarget? lenient tables :=
  funext (resolveTarget?_eq_of_sameTargets (sameTargets_changeColumn hsame tables table column)
    lenient)

theorem sameTarget_pointTo (target : Option (String × String)) (column : Column) :
    SameTarget (pointTo target column) column := by
  cases target <;> exact ⟨rfl, rfl⟩

/-- A foreign key to a named column that is there leads to that column. -/
theorem resolveTarget?_of_isSome_findColumn? {tables : List Table} (lenient : Bool)
    {key : ForeignKey} {column : String} (hnamed : key.targetColumn = some column)
    (hthere : (findColumn? tables key.target column).isSome = true) :
    resolveTarget? lenient tables key =
      ((findTable? tables key.target).map Table.name).bind fun table =>
        ((findColumn? tables key.target column).map Column.name).map (table, ·) := by
  rw [resolveTarget?_eq_bind, hnamed]
  cases hfound : findTable? tables key.target with
  | none => rfl
  | some table =>
    have hcolumn : findColumn? tables key.target column = table.column? column := by
      rw [findColumn?, hfound, Option.bind_some]
    rw [hcolumn] at hthere
    obtain ⟨found, hfound⟩ := Option.isSome_iff_exists.1 hthere
    rw [hcolumn, hfound, Option.bind_some, meantColumn?, hfound, Option.some_or]
    rfl

/-- A foreign key to a named column that is there leads to the same column in all tables of the
same outline, lenient or not. -/
theorem resolveTarget?_eq_of_outline_eq {before after : List Table}
    (houtline : outline after = outline before) (lenient strict : Bool) {key : ForeignKey}
    {column : String} (hnamed : key.targetColumn = some column)
    (hthere : (findColumn? before key.target column).isSome = true) :
    resolveTarget? lenient before key = resolveTarget? strict after key := by
  have hcolumns : (findColumn? after key.target column).map Column.name =
      (findColumn? before key.target column).map Column.name := by
    rw [map_name_findColumn?, houtline, ← map_name_findColumn?]
  have htables : (findTable? after key.target).map Table.name =
      (findTable? before key.target).map Table.name := by
    rw [map_name_findTable?, map_name_of_outline_eq houtline, ← map_name_findTable?]
  have hstill : (findColumn? after key.target column).isSome = true := by
    rw [← Option.isSome_map (f := Column.name), hcolumns, Option.isSome_map, hthere]
  rw [resolveTarget?_of_isSome_findColumn? lenient hnamed hthere,
    resolveTarget?_of_isSome_findColumn? strict hnamed hstill, htables, hcolumns]

/-! ## Catalogs with one key more -/

/-- Catalogs of the same tables, the first one with one foreign key more. -/
structure Catalog.Inserts (key : PendingKey) (left right : Catalog) : Prop where
  tables : left.tables = right.tables
  pending : ∃ front back, left.pending = front ++ key :: back ∧ right.pending = front ++ back

section Inserts

variable {key : PendingKey} {left right : Catalog}

/-- A definition of another table leaves the key. -/
theorem Catalog.Inserts.define (hinserts : Catalog.Inserts key left right)
    {definition : TableDefinition}
    (hother : definition.columns ≠ [] → Text.sameName definition.name key.table = false) :
    Catalog.Inserts key (left.define definition) (right.define definition) := by
  rw [Catalog.define, Catalog.define]
  split
  · exact hinserts
  · rename_i hcolumns
    have hdiffer : Text.sameName definition.name key.table = false :=
      hother (by simpa using hcolumns)
    obtain ⟨front, back, hleft, hright⟩ := hinserts.pending
    refine ⟨by rw [hinserts.tables], ?_⟩
    refine ⟨front.filter fun other => !Text.sameName other.table definition.name,
      (back.filter fun other => !Text.sameName other.table definition.name) ++
        definition.foreignKeys.map (⟨definition.name, ·⟩), ?_, ?_⟩
    · simp [hleft, Text.sameName_comm key.table, hdiffer]
    · simp [hright]

/-- An added column leaves the key. -/
theorem Catalog.Inserts.addColumn (hinserts : Catalog.Inserts key left right)
    (addition : String × Clause) :
    Catalog.Inserts key (left.addColumn addition) (right.addColumn addition) := by
  rw [Catalog.addColumn.eq_def, Catalog.addColumn.eq_def, hinserts.tables]
  split
  · rename_i declared foreignKey _
    split
    · exact hinserts
    · rename_i found _
      obtain ⟨front, back, hleft, hright⟩ := hinserts.pending
      refine ⟨rfl, front, back ++ foreignKey.toList.map (⟨found.name, ·⟩), ?_, ?_⟩
      · simp [hleft]
      · simp [hright]
  · exact hinserts

end Inserts

namespace TableScript

variable {script : TableScript} {name : String}

theorem additions_listing (script : TableScript) (place : Nat) (key : ForeignKey) :
    additions (script.listing place key).statements = additions script.statements := by
  simp [additions, statements, listing]

theorem viewDefinitions_listing (script : TableScript) (place : Nat) (key : ForeignKey) :
    viewDefinitions (script.listing place key).statements =
      viewDefinitions script.statements := by
  simp [viewDefinitions, statements, listing]

theorem namings_listing (script : TableScript) (place : Nat) (key : ForeignKey) :
    namings (script.listing place key).statements = namings script.statements := by
  simp [namings, statements, listing]

/-- A foreign key in the definition is one more key in the catalog. -/
theorem DefinesOnce.catalogOf_listing (honce : script.DefinesOnce name) (place : Nat)
    (key : ForeignKey) :
    Catalog.Inserts ⟨script.definition.name, key⟩
      (catalogOf (script.listing place key).statements) (catalogOf script.statements) := by
  obtain ⟨column, hcolumn, -⟩ := honce.column
  have hsome : ¬script.definition.columns.isEmpty = true := by
    simpa using List.ne_nil_of_mem hcolumn
  have hdefinition (catalog : Catalog) : Catalog.Inserts ⟨script.definition.name, key⟩
      (catalog.define (script.definition.listing place key))
      (catalog.define script.definition) := by
    rw [Catalog.define, Catalog.define, if_neg hsome, TableDefinition.listing, if_neg hsome]
    refine ⟨rfl, (catalog.pending.filter fun other =>
      !Text.sameName other.table script.definition.name) ++
        (script.definition.foreignKeys.take place).map (⟨script.definition.name, ·⟩),
      (script.definition.foreignKeys.drop place).map (⟨script.definition.name, ·⟩), ?_, ?_⟩
    · simp
    · simp
  rw [catalogOf, catalogOf, tableDefinitions_statements, tableDefinitions_statements,
    additions_listing, List.foldl_append, List.foldl_append, List.foldl_cons, List.foldl_cons]
  refine List.foldl_rel (List.foldl_rel (hdefinition _) ?_) ?_
  · intro other hmem left right hinserts
    apply hinserts.define
    intro hcolumns
    exact honce.table other (List.mem_filter.2 ⟨hmem, by simpa using hcolumns⟩)
  · intro addition _ left right hinserts
    exact hinserts.addColumn addition

end TableScript

/-! ## Keys of other columns -/

/-- Among the foreign keys of a table none belongs to the column. -/
theorem isOn_eq_false_of_keysOn {keys : List PendingKey} {table column : String}
    (hother : ∀ key ∈ keysOn keys table, Text.sameName column key.column = false) :
    ∀ key ∈ keys, ¬key.isOn table column = true := by
  intro key hmem hon
  rw [PendingKey.isOn, Bool.and_eq_true] at hon
  have hkept : key.foreignKey ∈ keysOn keys table :=
    List.mem_map_of_mem (List.mem_filter.2 ⟨hmem, by rw [Text.sameName_comm, hon.1]⟩)
  rw [hother _ hkept] at hon
  exact Bool.false_ne_true hon.2

/-! ## Base tables -/

namespace TableScript

variable {script : TableScript}

section Unique

variable {name : String} (honce : script.DefinesOnce name)

include honce

/-- A unique column of the definition is unique among the keyed tables. -/
theorem DefinesOnce.keyedTables_unique :
    keyedTables (script.changing name Column.asUnique).statements =
      changeColumn (keyedTables script.statements) script.definition.name name
        Column.asUnique := by
  have hcommute (target : Option (String × String)) (column : Column) :
      pointTo target column.asUnique = (pointTo target column).asUnique :=
    ((leavesKeys_pointTo target).asUnique_comm column).symm
  have hsame (column : Column) : SameTarget column.asUnique column := ⟨rfl, rfl⟩
  rw [keyedTables, honce.catalogOf_changing leavesKeys_asUnique.name_eq, additions_changing,
    foldl_placeForeignKey_eq_pointKey]
  dsimp only [Catalog.changing]
  rw [resolveTarget?_changeColumn hsame,
    foldl_pointKey_changeColumn _ _ leavesKeys_asUnique.name_eq fun _ _ _ => hcommute _,
    leavesKeys_asUnique.foldl_applyKey_changeColumn, ← foldl_placeForeignKey_eq_pointKey,
    ← keyedTables]

theorem DefinesOnce.baseTables_unique :
    baseTables (script.changing name Column.asUnique).statements =
      baseTables (script.appending (.unique [name])) := by
  rw [baseTables_appending script rfl, baseTables_eq_foldl_applyForeignKeys,
    honce.keyedTables_unique, additions_changing]
  rfl

end Unique

section ForeignKey

variable {key : ForeignKey} (honce : script.DefinesOnce key.column)
  (hlacks : script.LacksKey key.column)

include honce hlacks

/-- No other foreign key of the catalog belongs to the column. -/
theorem DefinesOnce.pending_not_isOn : ∀ other ∈ (catalogOf script.statements).pending,
    ¬other.isOn script.definition.name key.column = true := by
  obtain ⟨column, hcolumn, -⟩ := honce.column
  have hmem : script.definition ∈ properDefinitions (tableDefinitions script.statements) := by
    rw [tableDefinitions_statements]
    refine List.mem_filter.2 ⟨by simp, ?_⟩
    simpa using List.ne_nil_of_mem hcolumn
  apply isOn_eq_false_of_keysOn
  rw [keysOn_catalogOf script.statements ⟨_, hmem, Text.sameName_refl _⟩]
  exact (List.forall_mem_append.1 hlacks).1

omit honce in
/-- No other added foreign key belongs to the column. -/
theorem addedKeys_not_isOn : ∀ other ∈ addedKeys (additions script.statements),
    ¬other.isOn script.definition.name key.column = true := by
  apply isOn_eq_false_of_keysOn
  rw [keysOn_addedKeys]
  exact (List.forall_mem_append.1 hlacks).2

/-- A foreign key of the definition, with no other one on its column, is put on the keyed
tables. -/
theorem DefinesOnce.keyedTables_listing (place : Nat) :
    keyedTables (script.listing place key).statements =
      changeColumn (keyedTables script.statements) script.definition.name key.column
        (pointTo (resolveTarget? true (catalogOf script.statements).tables key)) := by
  obtain ⟨htables, front, back, hleft, hright⟩ := honce.catalogOf_listing place key
  have hback (other : PendingKey) (hmem : other ∈ back) :
      ¬other.isOn script.definition.name key.column = true :=
    honce.pending_not_isOn hlacks other (by rw [hright]; exact List.mem_append_right front hmem)
  rw [keyedTables, additions_listing, htables, hleft, foldl_placeForeignKey_eq_pointKey,
    List.foldl_append, List.foldl_cons, pointKey,
    foldl_pointKey_changeColumn _ _ (pointTo_name _) fun other hmem hon =>
      absurd hon (hback other hmem),
    ← List.foldl_append, ← hright, (leavesKeys_pointTo _).foldl_applyKey_changeColumn,
    ← foldl_placeForeignKey_eq_pointKey, ← keyedTables]

/-- It is put on the base tables as well. -/
theorem DefinesOnce.baseTables_listing (place : Nat) :
    baseTables (script.listing place key).statements =
      changeColumn (baseTables script.statements) script.definition.name key.column
        (pointTo (resolveTarget? true (catalogOf script.statements).tables key)) := by
  have hadded := addedKeys_not_isOn hlacks
  rw [baseTables_eq_foldl_placeForeignKey, additions_listing, honce.keyedTables_listing hlacks,
    foldl_placeForeignKey_eq_pointKey, resolveTarget?_changeColumn (sameTarget_pointTo _),
    foldl_pointKey_changeColumn _ _ (pointTo_name _) fun other hmem hon =>
      absurd hon (hadded other hmem),
    ← foldl_placeForeignKey_eq_pointKey, ← baseTables_eq_foldl_placeForeignKey]

/-- A foreign key to a column that is there leads there, in the definition as at the end. -/
theorem DefinesOnce.baseTables_foreignKey (place : Nat) {column : String}
    (hnamed : key.targetColumn = some column)
    (hthere : (findColumn? (catalogOf script.statements).tables key.target column).isSome = true) :
    baseTables (script.listing place key).statements =
      baseTables (script.appending (.foreignKeys [key])) := by
  have hleads := resolveTarget?_eq_of_outline_eq (baseTables_changed script.statements).outline_eq
    true false hnamed hthere
  calc
    baseTables (script.listing place key).statements
      = changeColumn (baseTables script.statements) script.definition.name key.column
          (pointTo (resolveTarget? false (baseTables script.statements) key)) := by
        rw [honce.baseTables_listing hlacks, hleads]
    _ = placeForeignKey false (baseTables script.statements) ⟨script.definition.name, key⟩ := by
        rw [placeForeignKey_eq_pointKey, pointKey]
    _ = baseTables (script.appending (.foreignKeys [key])) := by
        rw [baseTables_appending script rfl]
        rfl

end ForeignKey

end TableScript

/-! ## Schemas -/

/-- A column of a table that is defined once may be marked unique in the definition as well as at
the end of the script, and so may it get a foreign key to a named column that is there after all
columns have been added, in any place among those of the definition, if no other foreign key
names it.  Either way there is the same schema. -/
theorem schemaOfStatements?_appending (config : CategoryConfig) {script : TableScript}
    {name : String} (honce : script.DefinesOnce name) :
    schemaOfStatements? config (script.changing name Column.asUnique).statements =
        schemaOfStatements? config (script.appending (.unique [name])) ∧
      ∀ (place : Nat) (parent column : String),
        script.LacksKey name →
        (findColumn? (catalogOf script.statements).tables parent column).isSome = true →
        schemaOfStatements? config
            (script.listing place ⟨name, parent, some column⟩).statements =
          schemaOfStatements? config
            (script.appending (.foreignKeys [⟨name, parent, some column⟩])) := by
  constructor
  · apply schemaOfStatements?_eq_of_baseTables
    · exact honce.baseTables_unique
    · rw [script.viewDefinitions_changing, script.viewDefinitions_appending]
    · rw [script.namings_changing, script.namings_appending]
  · intro place parent column hlacks hthere
    apply schemaOfStatements?_eq_of_baseTables
    · exact TableScript.DefinesOnce.baseTables_foreignKey honce hlacks place rfl hthere
    · rw [script.viewDefinitions_listing, script.viewDefinitions_appending]
    · rw [script.namings_listing, script.namings_appending]

/-- Posts with an editor, a draft of another post, and people, who get a unique code. -/
def editorsScript : TableScript where
  before := [.createView ⟨"desks", [⟨.everything, none⟩], [{ table := "posts" }]⟩,
    .createTable ⟨"people", [{ name := "nr", type := "INT" }], []⟩]
  definition := ⟨"posts", [{ name := "editor", type := "INT" }, { name := "draft", type := "INT" }],
    [⟨"draft", "Posts", some "editor"⟩]⟩
  after := [.alterTable ⟨"People", [.column { name := "code", type := "INT" } none,
    .unique ["code"]]⟩]

theorem editorsScript_definesOnce : editorsScript.DefinesOnce "Editor" where
  column := ⟨_, List.mem_cons_self, by decide⟩
  table := by
    intro other hmem
    cases hmem
  notAdded := by
    intro table column foreignKey hmem hsame
    simp [editorsScript, TableScript.statements, additions] at hmem
    obtain ⟨rfl, -⟩ := hmem
    exact absurd hsame (by decide)

theorem schemaOfStatements?_appending_editorsScript :
    (editorsScript.DefinesOnce "Editor" ∧
      schemaOfStatements? .standard (editorsScript.changing "Editor" Column.asUnique).statements =
        schemaOfStatements? .standard (editorsScript.appending (.unique ["Editor"]))) ∧
    editorsScript.LacksKey "Editor" ∧
      (findColumn? (catalogOf editorsScript.statements).tables "people" "CODE").isSome = true ∧
      schemaOfStatements? .standard
          (editorsScript.listing 1 ⟨"Editor", "people", some "CODE"⟩).statements =
        schemaOfStatements? .standard
          (editorsScript.appending (.foreignKeys [⟨"Editor", "people", some "CODE"⟩])) := by
  have hlacks : editorsScript.LacksKey "Editor" := by decide
  have hthere : (findColumn? (catalogOf editorsScript.statements).tables "people" "CODE").isSome =
      true := by
    decide
  obtain ⟨hunique, hforeign⟩ :=
    schemaOfStatements?_appending .standard editorsScript_definesOnce
  exact ⟨⟨editorsScript_definesOnce, hunique⟩, hlacks, hthere,
    hforeign 1 "people" "CODE" hlacks hthere⟩

/-- The editors refer to people, and so does the view of them. -/
example :
    (schemaOfStatements? .standard editorsScript.statements).map Schema.relationshipCount =
        some 2 ∧
      (schemaOfStatements? .standard
        (editorsScript.listing 1 ⟨"Editor", "people", some "CODE"⟩).statements).map
          Schema.relationshipCount = some 4 := by
  decide

end Sql

end Crowfoot
