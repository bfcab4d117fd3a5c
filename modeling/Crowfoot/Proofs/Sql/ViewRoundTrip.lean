import Crowfoot.Proofs.Schema.Counts
import Crowfoot.Proofs.Sql.Rewritten

/-!
# Written views read back

A schema of a script that is written as SQL is read back with the same tables and
views in the same order.  Views keep their columns with lineage, references and
cardinalities, though the linking columns may change places.  Only the type of a
column that comes from nowhere is lost, and with it the types of the columns that
are taken from it.
-/

namespace Crowfoot

/-- A column says the same as another one, but for its type if that one comes from
nowhere. -/
def Column.Recovers (tables : List Table) (table : Table) (read written : Column) : Prop :=
  read.Retypes written ∧ (¬ ComesFromNowhere tables table written → read.type = written.type)

/-- A base table says the same as another one.  A view says the same but for types
that come from nowhere and the order of its linking columns. -/
def Table.Recovers (tables : List Table) (read written : Table) : Prop :=
  read.Relinks (Column.Recovers tables written) written

namespace Sql

/-! ## Types -/

/-- Every column that is read is one that was written, but perhaps of another
type. -/
theorem exists_written_column {read written : Table}
    (hrel : read.Relinks Column.Retypes written) {column : Column}
    (hmem : column ∈ read.columns) : ∃ original ∈ written.columns, column.Retypes original := by
  rw [hrel.readOrder] at hmem
  rw [hrel.writtenOrder]
  rcases List.mem_append.1 hmem with hdefined | hlink
  · obtain ⟨original, horiginal, hretypes⟩ := exists_of_forall₂ hrel.columns hdefined
    exact ⟨original, List.mem_append_left _ horiginal, hretypes⟩
  · exact ⟨column, List.mem_append_right _ (hrel.links.mem_iff.1 hlink), rfl⟩

section Types

variable {read written : List Table}
  (hrel : List.Forall₂ (Table.Relinks Column.Retypes) read written) (hnamed : WellNamed written)
  (hread : ∀ table ∈ read, ∀ column ∈ table.columns, IsTraced read column)
  (hwritten : ∀ table ∈ written, ∀ column ∈ table.columns, IsTraced written column)

include hrel hnamed

/-- A column that is read was written under its name in the table of that name. -/
theorem retypes_of_name {found table : Table} (hfound : found ∈ read) (htable : table ∈ written)
    (hname : found.name = table.name) {taken column : Column} (htaken : taken ∈ found.columns)
    (hcolumn : column ∈ table.columns) (hcolumnName : taken.name = column.name) :
    found.Relinks Column.Retypes table ∧ taken.Retypes column := by
  obtain ⟨other, hother, hrelinks⟩ := exists_of_forall₂ hrel hfound
  obtain rfl := hnamed.eq_of_name_eq hother htable (hrelinks.name.symm.trans hname)
  obtain ⟨original, horiginal, hretypes⟩ := exists_written_column hrelinks htaken
  have hsame : Text.sameName original.name column.name = true := by
    simp [← hcolumnName, hretypes.name_eq]
  obtain rfl := eq_of_distinctNames Column.name (hnamed.distinctColumns other htable) horiginal
    hcolumn hsame
  exact ⟨hrelinks, hretypes⟩

include hread hwritten

/-- A column with its origin in a base table keeps its type: both it and what is
read of it have the type of the column they are taken from. -/
theorem type_eq_of_isRooted {table : Table} {column : Column}
    (hrooted : IsRooted written table column) : ∀ found ∈ read, found.name = table.name →
      ∀ taken ∈ found.columns, taken.name = column.name → taken.type = column.type := by
  -- by induction on the way back to the base table, whose columns are the same in both
  induction hrooted with
  | @original table column htable hcolumn hbase =>
    intro found hfound hname taken htaken hcolumnName
    obtain ⟨hrelinks, -⟩ :=
      retypes_of_name hrel hnamed hfound htable hname htaken hcolumn hcolumnName
    rw [hrelinks.base hbase] at htaken
    have hsame : Text.sameName taken.name column.name = true := by simp [hcolumnName]
    rw [eq_of_distinctNames Column.name (hnamed.distinctColumns table htable) htaken hcolumn hsame]
  | @derived view source column original hview hcolumn hsource hsourceColumn hrooted ih =>
    intro found hfound hname taken htaken hcolumnName
    obtain ⟨-, hretypes⟩ :=
      retypes_of_name hrel hnamed hfound hview hname htaken hcolumn hcolumnName
    have htakenSource : taken.sourceTable = some source.name := by rw [hretypes, ← hsource]
    have htakenColumn : taken.sourceColumn = some original.name := by rw [hretypes, ← hsourceColumn]
    obtain ⟨known, hknown, hknownName, first, hfirst, hfirstName, htype⟩ :=
      hread found hfound taken htaken source.name original.name htakenSource htakenColumn
    obtain ⟨other, hother, hotherName, second, hsecond, hsecondName, hwrittenType⟩ :=
      hwritten view hview column hcolumn source.name original.name hsource hsourceColumn
    obtain ⟨hsourceMem, horiginal⟩ := hrooted.mem
    obtain rfl := hnamed.eq_of_name_eq hother hsourceMem hotherName
    have hsame : Text.sameName second.name original.name = true := by simp [hsecondName]
    obtain rfl := eq_of_distinctNames Column.name (hnamed.distinctColumns other hsourceMem) hsecond
      horiginal hsame
    calc taken.type = first.type := htype.symm
      _ = second.type := ih known hknown hknownName first hfirst hfirstName
      _ = column.type := hwrittenType

/-- Tables are recovered if they are the same up to types and every column has an
origin. -/
theorem recovers_of_relinks
    (horigin : ∀ table ∈ written, ∀ column ∈ table.columns, HasOrigin written table column) :
    List.Forall₂ (Table.Recovers written) read written := by
  obtain ⟨hlength, hzip⟩ := List.forall₂_iff_zip.1 hrel
  refine List.forall₂_iff_zip.2 ⟨hlength, fun {found table} hpair => ?_⟩
  obtain ⟨hfound, htable⟩ := List.of_mem_zip hpair
  have hrelinks := hzip hpair
  obtain ⟨hcount, hcolumns⟩ := List.forall₂_iff_zip.1 hrelinks.columns
  refine ⟨hrelinks.name, hrelinks.isView, hrelinks.base, ?_, hrelinks.links, hrelinks.readOrder,
    hrelinks.writtenOrder⟩
  refine List.forall₂_iff_zip.2 ⟨hcount, fun {taken column} hboth => ?_⟩
  obtain ⟨htaken, hcolumn⟩ := List.of_mem_zip hboth
  have hretypes := hcolumns hboth
  refine ⟨hretypes, fun hsomewhere => ?_⟩
  have hmem : column ∈ table.columns := (List.mem_filter.1 hcolumn).1
  have hrooted := (horigin table htable column hmem).resolve_right hsomewhere
  exact type_eq_of_isRooted hrel hnamed hread hwritten hrooted found hfound hrelinks.name taken
    (List.mem_filter.1 htaken).1 hretypes.name_eq

end Types

/-! ## Schemas -/

/-- Writing a schema with plain names and reading it back recovers its tables and
its views. -/
theorem readSchema?_schemaText_recovers {config : CategoryConfig} {text : String} {schema : Schema}
    (hread : readSchema? config text = some schema)
    (hdistinct : DistinctNames
      ((viewDefinitions (Statement.ofScript text.toList)).map ViewDefinition.name))
    (hplain : schema.IsPlain) :
    ∃ reread, readSchema? config (schemaText schema) = some reread ∧
      List.Forall₂ (Table.Recovers schema.tables) reread.tables schema.tables := by
  obtain ⟨finish, hfinish, htables⟩ :=
    assign_schemaTables config (Statement.ofScript text.toList)
  have hgive : GivePlain (Statement.ofScript text.toList) finish schema :=
    ⟨hdistinct, ofScript_isDeclared, hfinish, (readSchema?_tables hread).trans htables, hplain⟩
  have hscript := ofScript_schemaText_append hgive.isWritable
  obtain ⟨refinish, hrefinish, hretables⟩ := assign_schemaTables config (writtenStatements schema)
  have hrelinks := hgive.relinks hrefinish
  rw [← hretables, ← hscript] at hrelinks
  have hsome : config.assign (schemaTables (Statement.ofScript (schemaText schema).toList)) ≠ [] := by
    intro hnone
    rw [hnone, List.forall₂_nil_left_iff] at hrelinks
    exact readSchema?_ne_nil hread hrelinks
  obtain ⟨reread, hreread, hrereadTables⟩ := exists_readSchema? hsome
  refine ⟨reread, hreread, recovers_of_relinks ?_ ?_ ?_ ?_ ?_⟩
  · rwa [hrereadTables]
  · rw [readSchema?_tables hread]
    exact ((schemaTables_wellFormed ofScript_isDeclared).assign config).wellNamed
  · rw [hrereadTables, hscript, hretables]
    exact finished_isTraced hgive.distinct_writtenStatements hgive.declared_writtenStatements
      hrefinish
  · rw [hgive.tables]
    exact finished_isTraced hdistinct hgive.declared hfinish
  · rw [hgive.tables]
    exact finished_hasOrigin hdistinct hgive.declared hfinish

/-- A table that refers to itself, a view that is linked to it, and a view of both. -/
def stackedScript : String :=
  "CREATE TABLE users (\n    id   INT PRIMARY KEY,\n    boss INT REFERENCES users(id)\n);\n\n" ++
    "CREATE VIEW staff AS SELECT users.id AS head, NULL AS total FROM users;\n" ++
    "CREATE VIEW heads AS SELECT staff.total AS amount, users.boss FROM staff, users;\n"

/-- What the script says. -/
def stackedSchema : Schema where
  name := "stacked"
  format := .sql
  tables :=
    [{ name := "users",
       columns :=
        [{ name := "id", type := "INT", isPrimaryKey := true, nullability := .notNull },
          { name := "boss", type := "INT", isForeignKey := true,
            references := some ⟨"users", "id", some ⟨.zeroOrOne, .many⟩⟩ }] },
      { name := "staff", isView := true,
        columns :=
        [{ name := "head", type := "INT", nullability := .notNull, sourceTable := some "users",
           sourceColumn := some "id" },
          { name := "total", type := "TEXT" },
          { name := "_ref_users", type := "INTEGER", isForeignKey := true,
            references := some ⟨"users", "id", some ⟨.zeroOrOne, .many⟩⟩ }] },
      { name := "heads", isView := true,
        columns :=
        [{ name := "amount", type := "TEXT", sourceTable := some "staff",
           sourceColumn := some "total" },
          { name := "boss", type := "INT", isForeignKey := true,
            references := some ⟨"users", "id", some ⟨.zeroOrOne, .many⟩⟩,
            sourceTable := some "users", sourceColumn := some "boss" },
          { name := "_ref_staff", type := "INTEGER", isForeignKey := true,
            references := some ⟨"staff", "head", some ⟨.many, .many⟩⟩ }] }]

theorem schemaText_stackedSchema : schemaText stackedSchema = stackedScript := by
  decide +kernel

theorem stackedSchema_isPlain : stackedSchema.IsPlain where
  tables := by decide +kernel
  columns := by decide +kernel
  types := by
    have hint : ∀ table ∈ stackedSchema.tables, table.isView = false → ∀ column ∈ table.columns,
        column.type = "INT" := by decide +kernel
    intro table htable hbase column hcolumn
    rw [hint table htable hbase column hcolumn]
    exact isWritableType_int
  keys := by decide +kernel

theorem stackedSchema_isWritable : stackedSchema.IsWritable where
  bases hsome := by
    have htarget : HasColumn stackedSchema.bases "users" "id" :=
      ⟨_, List.mem_cons_self, rfl, _, List.mem_cons_self, rfl⟩
    have hnames : ∀ table ∈ stackedSchema.bases, IsBareName table.name := by decide +kernel
    refine ⟨hsome, ⟨?_, by decide, ?_⟩, by decide, fun table hmem =>
      (hnames table hmem).isWritableName, ?_⟩
    · rw [DistinctNames]
      decide +kernel
    · unfold DistinctNames
      decide +kernel
    · have hbases : stackedSchema.bases = [stackedSchema.tables[0]] := rfl
      rw [hbases, List.forall_mem_singleton]
      simp only [stackedSchema, List.getElem_cons_zero, List.forall_mem_cons]
      refine ⟨?_, ?_, by simp⟩
      · exact ⟨⟨by decide, by decide⟩, by decide, by decide, isWritableType_int, by decide, by decide,
          ⟨rfl, rfl⟩, rfl, by simp⟩
      · refine ⟨⟨by decide, by decide⟩, by decide, by decide, isWritableType_int, by decide,
          by decide, ⟨rfl, rfl⟩, rfl, ?_⟩
        rintro _ ⟨⟩
        exact htarget
  views := by
    have hsome : ∀ view ∈ stackedSchema.views, (definedColumns view).map selectionOf ≠ [] := by
      decide
    have hnames : ∀ view ∈ stackedSchema.views, IsBareName view.name ∧
        ∀ source ∈ viewSources view, IsBareName source := by decide +kernel
    have hcolumns : ∀ view ∈ stackedSchema.views, ∀ column ∈ definedColumns view,
        IsBareName column.name ∧ (∀ table ∈ column.sourceTable, IsBareName table) ∧
          ∀ source ∈ column.sourceColumn, IsBareName source := by decide +kernel
    intro view hview
    exact isWrittenView_viewDefinitionOf (hnames view hview).1 (hsome view hview)
      (hcolumns view hview) (hnames view hview).2

/-- How a table is drawn apart, its contents. -/
def contents (table : Table) : String × Bool × List Column :=
  (table.name, table.isView, table.columns)

theorem isPlain_of_contents {schema other : Schema}
    (hcontents : schema.tables.map contents = other.tables.map contents) (hplain : other.IsPlain) :
    schema.IsPlain := by
  have hmem : ∀ table ∈ schema.tables, ∃ known ∈ other.tables, contents known = contents table :=
    fun table htable => List.mem_map.1 (hcontents ▸ List.mem_map_of_mem htable)
  refine ⟨fun table htable => ?_, fun table htable => ?_, fun table htable => ?_,
    fun table htable => ?_⟩
  all_goals
    obtain ⟨known, hknown, heq⟩ := hmem table htable
    simp only [contents, Prod.mk.injEq] at heq
    obtain ⟨hname, hview, hcolumns⟩ := heq
  · exact hname ▸ hplain.tables known hknown
  · exact hview ▸ hcolumns ▸ hplain.columns known hknown
  · exact hview ▸ hcolumns ▸ hplain.types known hknown
  · exact hcolumns ▸ hplain.keys known hknown

-- A `FROM` clause is read by well-founded recursion, which does not evaluate; what the script
-- reads as is known from what it is written from.
theorem ofScript_stackedScript :
    Statement.ofScript stackedScript.toList = writtenStatements stackedSchema :=
  schemaText_stackedSchema ▸ ofScript_schemaText_append stackedSchema_isWritable

theorem exists_stackedSchema : ∃ schema, readSchema? .standard stackedScript = some schema ∧
    schema.tables.map contents = stackedSchema.tables.map contents := by
  rw [readSchema?, ofScript_stackedScript]
  apply Option.map_eq_some_iff.1
  decide +kernel

theorem readSchema?_schemaText_recovers_stackedScript :
    ∃ schema, readSchema? .standard stackedScript = some schema ∧
      DistinctNames ((viewDefinitions (Statement.ofScript stackedScript.toList)).map
        ViewDefinition.name) ∧ schema.IsPlain ∧
      ∃ reread, readSchema? .standard (schemaText schema) = some reread ∧
        List.Forall₂ (Table.Recovers schema.tables) reread.tables schema.tables := by
  obtain ⟨schema, hread, hcontents⟩ := exists_stackedSchema
  have hdistinct : DistinctNames ((viewDefinitions (Statement.ofScript stackedScript.toList)).map
      ViewDefinition.name) := by
    rw [ofScript_stackedScript, DistinctNames]
    decide +kernel
  have hplain := isPlain_of_contents hcontents stackedSchema_isPlain
  exact ⟨schema, hread, hdistinct, hplain, readSchema?_schemaText_recovers hread hdistinct hplain⟩

end Sql

end Crowfoot
