import Crowfoot.Proofs.Sql.Links
import Crowfoot.Sql.Schema

/-!
# Schemas of scripts

What holds of every schema that a script gives, whatever its statements are and
in whatever order they come: names are distinct, tables come before views, flags
agree with references, and every reference leads to a column of the schema and
carries the cardinality of the two columns as they are in the end.
-/

namespace Crowfoot

/-- A column with another reference where it has one. -/
def KeepsAllButTarget (adjust : Column → Column) : Prop :=
  ∀ column, ∃ references, references.isSome = column.references.isSome ∧
    adjust column = { column with references }

namespace Sql

/-- Tables and views with distinct names and columns, tables first, whose flags
agree with each other; keys are left to tables and lineage to views. -/
structure WellFormed (tables : List Table) : Prop where
  distinctTables : tables.Pairwise fun left right =>
    Text.sameName left.name right.name = false
  nonempty : ∀ table ∈ tables, table.columns ≠ []
  distinctColumns : ∀ table ∈ tables, table.columns.Pairwise fun left right =>
    Text.sameName left.name right.name = false
  tablesFirst : tables.Pairwise fun left right => left.isView = true → right.isView = true
  foreignKeys : ∀ table ∈ tables, ∀ column ∈ table.columns,
    column.isForeignKey = true ↔ column.references.isSome = true
  keysNotNull : ∀ table ∈ tables, ∀ column ∈ table.columns,
    column.isPrimaryKey = true → column.nullability = .notNull
  viewsKeyless : ∀ table ∈ tables, table.isView = true → ∀ column ∈ table.columns,
    column.isPrimaryKey = false ∧ column.isUnique = false
  tablesOriginal : ∀ table ∈ tables, table.isView = false → ∀ column ∈ table.columns,
    column.sourceTable = none ∧ column.sourceColumn = none

/-- Base tables followed by views are well formed. -/
theorem wellFormed_append {tables targets views : List Table} (hbase : IsBase tables)
    (hviews : AreViews tables targets views) : WellFormed (tables ++ views) where
  distinctTables := by
    have hdistinct := List.pairwise_append.2
      ⟨List.pairwise_map.1 hbase.named.distinctTables, List.pairwise_map.1 hviews.distinct,
        hviews.apart⟩
    exact hdistinct
  nonempty table hmem := by
    rcases List.mem_append.1 hmem with htable | hview
    · exact hbase.named.nonempty table htable
    · exact (hviews.each table hview).nonempty
  distinctColumns table hmem := by
    rcases List.mem_append.1 hmem with htable | hview
    · exact List.pairwise_map.1 (hbase.named.distinctColumns table htable)
    · exact List.pairwise_map.1 (hviews.each table hview).distinct
  tablesFirst := by
    refine List.pairwise_append.2 ⟨?_, ?_, ?_⟩
    · refine List.pairwise_of_forall_mem_list ?_
      intro left hleft right _ hview
      rw [hbase.noViews left hleft] at hview
      simp at hview
    · refine List.pairwise_of_forall_mem_list ?_
      intro left _ right hright _
      exact (hviews.each right hright).isView
    · intro left _ right hright _
      exact (hviews.each right hright).isView
  foreignKeys table hmem column hcolumn := by
    rcases List.mem_append.1 hmem with htable | hview
    · exact Bool.eq_iff_iff.1 (hbase.sound table htable column hcolumn).consistent
    · exact Bool.eq_iff_iff.1 ((hviews.each table hview).columns column hcolumn).sound.consistent
  keysNotNull table hmem column hcolumn := by
    rcases List.mem_append.1 hmem with htable | hview
    · exact (hbase.sound table htable column hcolumn).keyNotNull
    · exact ((hviews.each table hview).columns column hcolumn).sound.keyNotNull
  viewsKeyless table hmem hisView column hcolumn := by
    rcases List.mem_append.1 hmem with htable | hview
    · rw [hbase.noViews table htable] at hisView
      simp at hisView
    · have hkeyless := (hviews.each table hview).columns column hcolumn
      exact ⟨hkeyless.notPrimary, hkeyless.notUnique⟩
  tablesOriginal table hmem hisTable column hcolumn := by
    rcases List.mem_append.1 hmem with htable | hview
    · exact hbase.noLineage table htable column hcolumn
    · rw [(hviews.each table hview).isView] at hisTable
      simp at hisTable

/-- Where and how tables are drawn and what cardinality a reference has is of no
account. -/
theorem WellFormed.map {tables : List Table} (hformed : WellFormed tables)
    {draw : Table → Table} (adjust : Column → Column) (hadjust : KeepsAllButTarget adjust)
    (hdraw : ∀ table, (draw table).name = table.name ∧
      (draw table).columns = table.columns.map adjust ∧ (draw table).isView = table.isView) :
    WellFormed (tables.map draw) where
  distinctTables := by
    rw [List.pairwise_map]
    exact hformed.distinctTables.imp fun hdiffer => by simpa [hdraw] using hdiffer
  nonempty := by
    simpa [hdraw] using hformed.nonempty
  distinctColumns := by
    have hname (column : Column) : (adjust column).name = column.name := by
      obtain ⟨_, _, heq⟩ := hadjust column
      rw [heq]
    simpa [hdraw, hname, List.pairwise_map] using hformed.distinctColumns
  tablesFirst := by
    rw [List.pairwise_map]
    exact hformed.tablesFirst.imp fun hfirst => by simpa [hdraw] using hfirst
  foreignKeys := by
    simp only [List.forall_mem_map, hdraw]
    intro table htable column hcolumn
    obtain ⟨references, hsome, heq⟩ := hadjust column
    simpa [heq, hsome] using hformed.foreignKeys table htable column hcolumn
  keysNotNull := by
    simp only [List.forall_mem_map, hdraw]
    intro table htable column hcolumn
    obtain ⟨_, _, heq⟩ := hadjust column
    simpa [heq] using hformed.keysNotNull table htable column hcolumn
  viewsKeyless := by
    simp only [List.forall_mem_map, hdraw]
    intro table htable hview column hcolumn
    obtain ⟨_, _, heq⟩ := hadjust column
    simpa [heq] using hformed.viewsKeyless table htable hview column hcolumn
  tablesOriginal := by
    simp only [List.forall_mem_map, hdraw]
    intro table htable hview column hcolumn
    obtain ⟨_, _, heq⟩ := hadjust column
    simpa [heq] using hformed.tablesOriginal table htable hview column hcolumn

/-- Every reference leads to a column of the tables and carries the cardinality
of the two columns. -/
def ReferencesResolved (tables : List Table) : Prop :=
  ∀ table ∈ tables, ∀ column ∈ table.columns, ∀ reference ∈ column.references,
    ∃ target ∈ tables, target.name = reference.table ∧
      ∃ key ∈ target.columns, key.name = reference.column ∧
        reference.cardinality = some (Cardinality.ofKeys key column)

theorem withCardinality_keeps (tables : List Table) :
    KeepsAllButTarget (withCardinality tables) :=
  fun _ => ⟨_, Option.isSome_map, rfl⟩

theorem WellFormed.attachCardinalities {tables : List Table} (hformed : WellFormed tables) :
    WellFormed (attachCardinalities tables) :=
  hformed.map (withCardinality tables) (withCardinality_keeps tables) fun _ => ⟨rfl, rfl, rfl⟩

theorem WellFormed.assign {tables : List Table} (hformed : WellFormed tables)
    (config : CategoryConfig) : WellFormed (config.assign tables) := by
  obtain ⟨draw, hassign, hdraw⟩ := config.assign_eq_map tables
  rw [hassign]
  refine hformed.map id (fun column => ⟨column.references, rfl, rfl⟩) ?_
  intro table
  obtain ⟨hname, hcolumns, hview⟩ := hdraw table
  exact ⟨hname, by simp [hcolumns], hview⟩

theorem WellFormed.wellNamed {tables : List Table} (hformed : WellFormed tables) :
    WellNamed tables where
  distinctTables := List.pairwise_map.2 hformed.distinctTables
  nonempty := hformed.nonempty
  distinctColumns table hmem := List.pairwise_map.2 (hformed.distinctColumns table hmem)

/-- Where names are distinct, attaching cardinalities finds the target of every
reference that has one. -/
theorem attachCardinalities_resolved {tables : List Table} (hnamed : WellNamed tables)
    (hsound : ∀ table ∈ tables, ∀ column ∈ table.columns, column.IsSound tables) :
    ReferencesResolved (attachCardinalities tables) := by
  intro table htable column hcolumn reference hreference
  obtain ⟨original, horiginal, rfl⟩ := List.mem_map.1 htable
  obtain ⟨before, hbefore, rfl⟩ := List.mem_map.1 hcolumn
  obtain ⟨resolved, hresolved, rfl⟩ := Option.map_eq_some_iff.1 hreference
  obtain ⟨target, htarget, hname, key, hkey, hkeyName⟩ :=
    (hsound original horiginal before hbefore).resolved resolved hresolved
  have htable := hnamed.findTable?_eq htarget
  have hcolumn := hnamed.column?_eq htarget hkey
  refine ⟨_, List.mem_map_of_mem htarget, hname, _, List.mem_map_of_mem hkey, hkeyName, ?_⟩
  rw [hname] at htable
  rw [hkeyName] at hcolumn
  simp only [hresolved, Option.bind_eq_bind, Option.bind_some, htable, hcolumn, Option.pure_def]
  rfl

theorem ReferencesResolved.assign {tables : List Table} (hresolved : ReferencesResolved tables)
    (config : CategoryConfig) : ReferencesResolved (config.assign tables) := by
  obtain ⟨draw, hassign, hdraw⟩ := config.assign_eq_map tables
  rw [hassign]
  intro table htable column hcolumn reference hreference
  obtain ⟨original, horiginal, rfl⟩ := List.mem_map.1 htable
  rw [(hdraw original).2.1] at hcolumn
  obtain ⟨target, htarget, hname, key, hkey, hcardinality⟩ :=
    hresolved original horiginal column hcolumn reference hreference
  refine ⟨draw target, List.mem_map_of_mem htarget, (hdraw target).1.trans hname, key, ?_,
    hcardinality⟩
  rw [(hdraw target).2.1]
  exact hkey

/-! ## Scripts -/

section Scripts

variable {statements : List Statement}

theorem schemaTables_areViews (hdeclared : ∀ statement ∈ statements, statement.IsDeclared) :
    AreViews (baseTables statements)
      (baseTables statements ++
        linkViews (baseTables statements) (resolveViews statements (baseTables statements)))
      (linkViews (baseTables statements) (resolveViews statements (baseTables statements))) :=
  linkViews_areViews (resolveViews_areViews (baseTables_isBase hdeclared) statements)

theorem schemaTables_wellFormed (hdeclared : ∀ statement ∈ statements, statement.IsDeclared) :
    WellFormed (schemaTables statements) :=
  (wellFormed_append (baseTables_isBase hdeclared)
    (schemaTables_areViews hdeclared)).attachCardinalities

theorem schemaTables_resolved (hdeclared : ∀ statement ∈ statements, statement.IsDeclared) :
    ReferencesResolved (schemaTables statements) := by
  have hbase := baseTables_isBase hdeclared
  have hviews := schemaTables_areViews hdeclared
  apply attachCardinalities_resolved (wellFormed_append hbase hviews).wellNamed
  intro table hmem column hcolumn
  rcases List.mem_append.1 hmem with htable | hview
  · exact (hbase.sound table htable column hcolumn).of_hasColumn
      fun _ _ hhas => HasColumn.append_left hhas _
  · exact ((hviews.each table hview).columns column hcolumn).sound

end Scripts

theorem readSchema?_tables {config : CategoryConfig} {text : String} {schema : Schema}
    (hread : readSchema? config text = some schema) :
    schema.tables = config.assign (schemaTables (Statement.ofScript text.toList)) := by
  simp only [readSchema?, schemaOfStatements?] at hread
  split at hread
  · simp at hread
  · exact (Option.some.inj hread) ▸ rfl

section Read

variable {config : CategoryConfig} {text : String}

theorem assign_eq_nil_iff {tables : List Table} : config.assign tables = [] ↔ tables = [] := by
  obtain ⟨draw, hassign, -⟩ := config.assign_eq_map tables
  rw [hassign, List.map_eq_nil_iff]

/-- A schema that is read has a table or a view. -/
theorem readSchema?_ne_nil {schema : Schema} (hread : readSchema? config text = some schema) :
    schema.tables ≠ [] := by
  rw [readSchema?_tables hread, Ne, assign_eq_nil_iff]
  intro hnone
  rw [readSchema?, schemaOfStatements?, hnone] at hread
  cases hread

/-- A script with a table or a view gives a schema. -/
theorem exists_readSchema?
    (hsome : config.assign (schemaTables (Statement.ofScript text.toList)) ≠ []) :
    ∃ schema, readSchema? config text = some schema ∧
      schema.tables = config.assign (schemaTables (Statement.ofScript text.toList)) := by
  have hnot : ¬ (schemaTables (Statement.ofScript text.toList)).isEmpty = true := by
    rwa [List.isEmpty_iff, ← @assign_eq_nil_iff config]
  exact ⟨_, if_neg hnot, rfl⟩

end Read

/-- Every schema that is read from a script is well formed. -/
theorem readSchema?_wellFormed {config : CategoryConfig} {text : String} {schema : Schema}
    (hread : readSchema? config text = some schema) : WellFormed schema.tables := by
  rw [readSchema?_tables hread]
  exact (schemaTables_wellFormed ofScript_isDeclared).assign config

/-- A table that refers to a later one, and a view that inherits the reference. -/
def linkedScript : String :=
  "CREATE TABLE a(y INT REFERENCES B);CREATE TABLE b(k INT IDENTITY);CREATE VIEW v AS SELECT y FROM a"

theorem isSome_readSchema?_linkedScript :
    (readSchema? .standard linkedScript).isSome = true := by
  decide +kernel

theorem readSchema?_linkedScript_wellFormed :
    ∃ schema, readSchema? .standard linkedScript = some schema ∧ WellFormed schema.tables := by
  obtain ⟨schema, hread⟩ := Option.isSome_iff_exists.1 isSome_readSchema?_linkedScript
  exact ⟨schema, hread, readSchema?_wellFormed hread⟩

/-- Every reference of a schema that is read from a script is resolved. -/
theorem readSchema?_referencesResolved {config : CategoryConfig} {text : String} {schema : Schema}
    (hread : readSchema? config text = some schema) : ReferencesResolved schema.tables := by
  rw [readSchema?_tables hread]
  exact (schemaTables_resolved ofScript_isDeclared).assign config

theorem readSchema?_linkedScript_referencesResolved :
    ∃ schema, readSchema? .standard linkedScript = some schema ∧
      ReferencesResolved schema.tables := by
  obtain ⟨schema, hread⟩ := Option.isSome_iff_exists.1 isSome_readSchema?_linkedScript
  exact ⟨schema, hread, readSchema?_referencesResolved hread⟩

end Sql

end Crowfoot
