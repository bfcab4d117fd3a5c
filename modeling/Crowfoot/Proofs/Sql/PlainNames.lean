import Crowfoot.Proofs.Sql.Origins
import Crowfoot.Proofs.Text.Classes

/-!
# Schemas with plain names

A schema of a script whose names are bare words, linking columns apart, can be
written down: its tables without loss, and its views as they were before any
links.  No column that a view was read with is taken for a linking column, not
even one that its own name points at a table.
-/

namespace Crowfoot

/-- A column that links a view to a table: it comes from nowhere, refers to the
table and is named for it. -/
def Column.IsLink (column : Column) : Prop :=
  column.sourceTable = none ∧ ∃ reference ∈ column.references,
    column.name = Column.linkMark ++ reference.table

instance : DecidablePred Column.IsLink :=
  fun column => inferInstanceAs (Decidable (column.sourceTable = none ∧
    ∃ reference ∈ column.references, column.name = Column.linkMark ++ reference.table))

/-- Names are bare words, but for the linking columns of views; types of tables
read back as they are written, and no primary key is also unique. -/
structure Schema.IsPlain (schema : Schema) : Prop where
  tables : ∀ table ∈ schema.tables, IsBareName table.name
  columns : ∀ table ∈ schema.tables, ∀ column ∈ table.columns,
    table.isView = true ∧ column.IsLink ∨ IsBareName column.name
  types : ∀ table ∈ schema.tables, table.isView = false → ∀ column ∈ table.columns,
    IsWritableType column.type.toList
  keys : ∀ table ∈ schema.tables, ∀ column ∈ table.columns,
    column.isPrimaryKey = true → column.isUnique = false

namespace Text

theorem foldCase_append (left right : List Char) :
    foldCase (left ++ right) = foldCase left ++ foldCase right :=
  List.map_append

theorem foldCase_foldCase (text : List Char) : foldCase (foldCase text) = foldCase text := by
  have hchar (c : Char) : c.toLower.toLower = c.toLower := by
    delta Char.toLower
    grind
  simp [foldCase, hchar]

end Text

namespace Sql

/-! ## Linking names -/

theorem lower_of_namedWord? {name word : String} (hword : namedWord? name = some word) :
    Text.lower name.toList = word.toList ++ "_name".toList := by
  simp only [namedWord?] at hword
  split at hword
  · rename_i hending
    obtain ⟨hfront, -⟩ := Bool.and_eq_true_iff.1 hending
    obtain ⟨rest, hrest⟩ := List.isPrefixOf_iff_prefix.1 hfront
    rw [← hrest, List.drop_left] at hword
    rw [← Option.some.inj hword, String.toList_ofList, ← List.reverse_reverse (Text.lower name.toList),
      ← hrest, List.reverse_append, List.reverse_reverse]
  · cases hword

/-- A reference that a column gets by its name leads to a table that the word in
front of `_name` is the name of. -/
theorem namedWord?_of_linkNamed {known : List Table} {column : Column}
    (hnone : column.references = none) {reference : ColumnReference}
    (hsome : (linkNamed known column).references = some reference) :
    ∃ word, namedWord? column.name = some word ∧
      (Text.sameName reference.table word = true ∨
        Text.sameName reference.table (word ++ "s") = true) := by
  rw [linkNamed, if_neg (by simp [hnone])] at hsome
  simp only [Option.bind_eq_bind, Option.pure_def] at hsome
  split at hsome
  · rename_i table key hfound
    simp only [Option.bind_eq_some_iff, Option.some.injEq, Prod.mk.injEq] at hfound
    obtain ⟨word, hword, found, htable, primary, hkey, rfl, rfl⟩ := hfound
    have htest := List.find?_some htable
    simp only [Bool.and_eq_true, Bool.or_eq_true] at htest
    obtain rfl := Option.some.inj hsome
    exact ⟨word, hword, htest.2⟩
  · rw [hnone] at hsome
    cases hsome

/-- The name of a linking column is not read as meaning the table it is named for:
it has one `r` more in front than `_name` has behind. -/
theorem linkMark_ne_name {table word : String} (hascii : ∀ c ∈ table.toList, c.toNat < 128)
    (hword : namedWord? (Column.linkMark ++ table) = some word)
    (hsame : Text.sameName table word = true ∨ Text.sameName table (word ++ "s") = true) : False := by
  have hname : ∀ c ∈ (Column.linkMark ++ table).toList, c.toNat < 128 := by
    rw [String.toList_append, List.forall_mem_append]
    exact ⟨by decide, hascii⟩
  have hlower := lower_of_namedWord? hword
  rw [Text.lower_eq_foldCase hname, String.toList_append, Text.foldCase_append] at hlower
  have hcount := congrArg (fun text => (Text.foldCase text).count 'r') hlower
  have hleft : (Text.foldCase (Text.foldCase Column.linkMark.toList ++
      Text.foldCase table.toList)).count 'r' = 1 + (Text.foldCase table.toList).count 'r' := by
    rw [Text.foldCase_append, Text.foldCase_foldCase, Text.foldCase_foldCase, List.count_append]
    rfl
  have hright : (Text.foldCase (word.toList ++ "_name".toList)).count 'r' =
      (Text.foldCase word.toList).count 'r' := by
    rw [Text.foldCase_append, List.count_append]
    rfl
  have htable : (Text.foldCase table.toList).count 'r' =
      (Text.foldCase word.toList).count 'r' := by
    rcases hsame with hword | hplural
    · rw [Text.sameName_iff.1 hword]
    · rw [Text.sameName_iff.1 hplural, String.toList_append, Text.foldCase_append,
        List.count_append]
      rfl
  simp only [hleft, hright] at hcount
  omega

/-- A column that a view was read with is not taken for a linking column. -/
theorem not_isLink_of_isSelected {known all : List Table} {column : Column}
    (hselected : IsSelected known column) {others : List Table}
    (hascii : ∀ table ∈ others, ∀ c ∈ table.name.toList, c.toNat < 128) :
    ¬ (withCardinality all (linkNamed others column)).IsLink := by
  rintro ⟨hsource, reference, hreference, hname⟩
  obtain ⟨linked, hlinked, rfl⟩ := Option.map_eq_some_iff.1 hreference
  have hname' : column.name = Column.linkMark ++ linked.table :=
    (linkNamed_name others column).symm.trans hname
  cases hselected with
  | derived hmem hcolumn aliasName =>
    have hderived := (linkNamed_sourceTable others _).symm.trans hsource
    cases hderived
  | plain name type =>
    obtain ⟨word, hword, hsame⟩ := namedWord?_of_linkNamed rfl hlinked
    rw [hname'] at hword
    refine linkMark_ne_name ?_ hword hsame
    rcases linkNamed_cases others { name, type } with heq | ⟨table, htable, _, key, _, _, heq⟩
    · rw [heq] at hlinked
      cases hlinked
    · rw [heq] at hlinked
      obtain rfl := Option.some.inj hlinked
      exact hascii table htable

/-! ## What is written of a schema -/

/-- The statements define views of different names and give a schema with plain
names. -/
structure GivePlain (statements : List Statement) (finish : Table → Table)
    (schema : Schema) : Prop where
  distinct : DistinctNames ((viewDefinitions statements).map ViewDefinition.name)
  declared : ∀ statement ∈ statements, statement.IsDeclared
  finishes : Finishes (linkedTables statements) finish
  tables : schema.tables = (linkedTables statements).map finish
  plain : schema.IsPlain

namespace GivePlain

variable {statements : List Statement} {finish : Table → Table} {schema : Schema}

theorem isView_base (hgive : GivePlain statements finish schema) :
    ∀ table ∈ (baseTables statements).map finish, table.isView = false := by
  rw [List.forall_mem_map]
  intro table hmem
  rw [(hgive.finishes table).2.1]
  exact (baseTables_isBase hgive.declared).noViews table hmem

theorem isView_linked (hgive : GivePlain statements finish schema) :
    ∀ view ∈ (linkViews (baseTables statements) (readViews statements)).map finish,
      view.isView = true := by
  rw [List.forall_mem_map]
  intro view hmem
  rw [(hgive.finishes view).2.1]
  exact ((schemaTables_areViews hgive.declared).each view hmem).isView

theorem bases_eq (hgive : GivePlain statements finish schema) :
    schema.bases = (baseTables statements).map finish := by
  rw [Schema.bases, hgive.tables, finished_bases hgive.declared hgive.finishes]

theorem views_eq (hgive : GivePlain statements finish schema) :
    schema.views = (readViews statements).map fun view =>
      finish (linkView (readTablesAndViews statements) view) := by
  have hbases : ((baseTables statements).map finish).filter Table.isView = [] :=
    List.filter_eq_nil_iff.2 fun table hmem => by simp [hgive.isView_base table hmem]
  have hviews : ((linkViews (baseTables statements) (readViews statements)).map finish).filter
      Table.isView = (linkViews (baseTables statements) (readViews statements)).map finish :=
    List.filter_eq_self.2 hgive.isView_linked
  rw [Schema.views, hgive.tables, linkedTables, List.map_append, List.filter_append, hbases,
    hviews, List.nil_append, linkViews, List.map_map]
  rfl

theorem mem_of_base (hgive : GivePlain statements finish schema) {table : Table}
    (hmem : table ∈ baseTables statements) : finish table ∈ schema.tables := by
  rw [hgive.tables]
  exact List.mem_map_of_mem (List.mem_append_left _ hmem)

theorem mem_of_view (hgive : GivePlain statements finish schema) {view : ResolvedView}
    (hmem : view ∈ readViews statements) :
    finish (linkView (readTablesAndViews statements) view) ∈ schema.tables := by
  rw [hgive.tables]
  exact List.mem_map_of_mem (mem_linkedTables hmem)

/-- Every table and view that is read has a bare name. -/
theorem isBareName_table (hgive : GivePlain statements finish schema) :
    ∀ table ∈ readTablesAndViews statements, IsBareName table.name := by
  intro table hmem
  rcases List.mem_append.1 hmem with hbase | hread
  · rw [← (hgive.finishes table).1]
    exact hgive.plain.tables _ (hgive.mem_of_base hbase)
  · obtain ⟨view, hview, rfl⟩ := List.mem_map.1 hread
    rw [← (finished_linkView hgive.distinct hgive.declared hgive.finishes hview).1]
    exact hgive.plain.tables _ (hgive.mem_of_view hview)

/-- Every column that is read has a bare name. -/
theorem isBareName_column (hgive : GivePlain statements finish schema) :
    ∀ table ∈ readTablesAndViews statements, ∀ column ∈ table.columns,
      IsBareName column.name := by
  intro table hmem column hcolumn
  rcases List.mem_append.1 hmem with hbase | hread
  · have hkept : withCardinality (linkedTables statements) column ∈ (finish table).columns := by
      rw [(hgive.finishes table).2.2]
      exact List.mem_map_of_mem hcolumn
    rcases hgive.plain.columns _ (hgive.mem_of_base hbase) _ hkept with ⟨hview, -⟩ | hbare
    · rw [hgive.isView_base _ (List.mem_map_of_mem hbase)] at hview
      cases hview
    · exact hbare
  · obtain ⟨view, hview, rfl⟩ := List.mem_map.1 hread
    have hresolved := readViews_isResolved hgive.distinct view hview
    have hkept : withCardinality (linkedTables statements)
        (linkNamed (readTablesAndViews statements) column) ∈
          (finish (linkView (readTablesAndViews statements) view)).columns := by
      rw [(hgive.finishes _).2.2, linkView_eq
        (readTablesAndViews_wellNamed hgive.distinct hgive.declared) hresolved]
      exact List.mem_map_of_mem (List.mem_append_left _ (List.mem_map_of_mem hcolumn))
    rcases hgive.plain.columns _ (hgive.mem_of_view hview) _ hkept with ⟨-, hlink⟩ | hbare
    · exact absurd hlink (not_isLink_of_isSelected (hresolved.columns column hcolumn)
        fun table htable => (hgive.isBareName_table table htable).ascii)
    · rw [← linkNamed_name (readTablesAndViews statements) column]
      exact hbare

theorem isVirtual_eq_false (hgive : GivePlain statements finish schema) {table : Table}
    (htable : table ∈ readTablesAndViews statements) :
    ∀ column ∈ table.columns, column.isVirtual = false :=
  fun column hmem => (hgive.isBareName_column table htable column hmem).notLinking

/-- The outline of the base tables stays as it was read. -/
theorem outline_bases (hgive : GivePlain statements finish schema) :
    outline schema.bases = outline (baseTables statements) := by
  rw [hgive.bases_eq, outline, outline, List.map_map]
  apply List.map_congr_left
  intro table hmem
  obtain ⟨hname, -, hcolumns⟩ := hgive.finishes table
  rw [Function.comp_apply, hname, hcolumns, List.map_map]
  rfl

theorem bases_wellNamed (hgive : GivePlain statements finish schema) : WellNamed schema.bases :=
  (baseTables_isBase hgive.declared).named.of_outline_eq hgive.outline_bases

/-- The columns of base tables can be written without loss. -/
theorem bases_columns (hgive : GivePlain statements finish schema) :
    ∀ table ∈ schema.bases, ∀ column ∈ table.columns, column.IsWritable schema.bases := by
  intro table hmem column hcolumn
  have hbase := baseTables_isBase hgive.declared
  have hgiven := (List.mem_filter.1 hmem).1
  have hview : table.isView = false := by simpa using (List.mem_filter.1 hmem).2
  have hplain := hgive.plain.types table hgiven hview column hcolumn
  have hkeys := hgive.plain.keys table hgiven column hcolumn
  rw [hgive.bases_eq] at hmem
  obtain ⟨original, horiginal, rfl⟩ := List.mem_map.1 hmem
  rw [(hgive.finishes original).2.2] at hcolumn
  obtain ⟨kept, hkept, rfl⟩ := List.mem_map.1 hcolumn
  have hsound := hbase.sound original horiginal kept hkept
  have hname : IsBareName kept.name :=
    hgive.isBareName_column original (List.mem_append_left _ horiginal) kept hkept
  refine ⟨hname.isWritableName, hname.notLinking, ?_, hplain, hsound.keyNotNull, hkeys,
    hbase.noLineage original horiginal kept hkept, ?_, ?_⟩
  · exact fun word hword => hname.notReserved word (List.mem_append_right _ hword)
  · exact hsound.consistent.trans Option.isSome_map.symm
  · intro reference hreference
    obtain ⟨target, htarget, rfl⟩ := Option.map_eq_some_iff.1 hreference
    exact (hsound.resolved target htarget).of_outline_eq hgive.outline_bases

/-- The base tables can be written without loss, if there are any. -/
theorem bases_areWritable (hgive : GivePlain statements finish schema)
    (hsome : schema.bases ≠ []) : AreWritable schema.bases where
  nonempty := hsome
  wellNamed := hgive.bases_wellNamed
  noViews table hmem := by simpa using (List.mem_filter.1 hmem).2
  names table hmem := (hgive.plain.tables table (List.mem_filter.1 hmem).1).isWritableName
  columns := hgive.bases_columns

/-- What is written of a view has bare names. -/
theorem isWrittenView (hgive : GivePlain statements finish schema) {view : ResolvedView}
    (hview : view ∈ readViews statements) : IsWrittenView (writtenDefinition view) := by
  have hresolved := readViews_isResolved hgive.distinct view hview
  have hmem : view.table ∈ readTablesAndViews statements :=
    List.mem_append_right _ (List.mem_map_of_mem hview)
  have hname := hgive.isBareName_table view.table hmem
  refine ⟨hname, ?_, ?_, ?_⟩
  · simpa [writtenDefinition] using hresolved.nonempty
  · rw [writtenDefinition, List.forall_mem_map]
    intro column hcolumn
    have hbare := hgive.isBareName_column view.table hmem column hcolumn
    have hselected := hresolved.columns column hcolumn
    cases hselected with
    | @derived source original hsource horiginal aliasName =>
      have hknown := (List.mem_filter.1 hsource).1
      apply isWrittenItem_selectionOf hbare
      · rintro _ ⟨⟩
        exact hgive.isBareName_table source hknown
      · rintro _ ⟨⟩
        exact hgive.isBareName_column source hknown original horiginal
    | plain name type => exact .missing hbare
  · rw [writtenDefinition, List.forall_mem_map]
    intro source hsource
    refine ⟨?_, rfl⟩
    split at hsource
    · rw [List.mem_singleton.1 hsource]
      exact hname
    · have hmentioned := mem_mentioned_of_mem_sources hresolved ((mem_writtenSources
        (readTablesAndViews_wellNamed hgive.distinct hgive.declared) hresolved).1 hsource)
      obtain ⟨table, htable, rfl⟩ := List.mem_map.1 (hresolved.mentioned source hmentioned)
      exact hgive.isBareName_table table htable

theorem viewDefinitionOf_finished (hgive : GivePlain statements finish schema)
    {view : ResolvedView} (hview : view ∈ readViews statements) :
    viewDefinitionOf (finish (linkView (readTablesAndViews statements) view)) =
      writtenDefinition view :=
  viewDefinitionOf_linkView (readTablesAndViews_wellNamed hgive.distinct hgive.declared)
    (readViews_isResolved hgive.distinct view hview)
    (hgive.isVirtual_eq_false (List.mem_append_right _ (List.mem_map_of_mem hview)))
    (finished_linkView hgive.distinct hgive.declared hgive.finishes hview).1
    (hgive.finishes _).2.2

/-- A schema with plain names can be written. -/
theorem isWritable (hgive : GivePlain statements finish schema) : schema.IsWritable where
  bases := hgive.bases_areWritable
  views := by
    rw [hgive.views_eq, List.forall_mem_map]
    intro view hview
    rw [hgive.viewDefinitionOf_finished hview]
    exact hgive.isWrittenView hview

end GivePlain

end Sql

end Crowfoot
