import Crowfoot.Proofs.Sql.WellFormed
import Crowfoot.Proofs.Sql.WrittenLinks

/-!
# Origins of columns

The tables of a schema are the base tables and the linked views of a script, with
cardinalities attached and drawn in some way.  Following a column of a view to the
one it is taken from, and that one further, ends at a column of a base table or at
a column of a view that comes from nowhere.  In the first case its type is that of
the base table's column.
-/

namespace Crowfoot

/-- A column of a view that is taken from no other column, or from one that comes
from nowhere itself. -/
inductive ComesFromNowhere (tables : List Table) : Table → Column → Prop
  | original {view : Table} {column : Column} (hview : view.isView = true)
      (hsource : column.sourceTable = none) : ComesFromNowhere tables view column
  | derived {view source : Table} {column original : Column} (hsource : source ∈ tables)
      (horiginal : original ∈ source.columns) (htable : column.sourceTable = some source.name)
      (hcolumn : column.sourceColumn = some original.name)
      (hnowhere : ComesFromNowhere tables source original) : ComesFromNowhere tables view column

/-- A column of a base table, or one that is taken from a column with its origin
there. -/
inductive IsRooted (tables : List Table) : Table → Column → Prop
  | original {table : Table} {column : Column} (hmem : table ∈ tables)
      (hcolumn : column ∈ table.columns) (hbase : table.isView = false) :
      IsRooted tables table column
  | derived {view source : Table} {column original : Column} (hmem : view ∈ tables)
      (hcolumn : column ∈ view.columns) (htable : column.sourceTable = some source.name)
      (hsource : column.sourceColumn = some original.name)
      (hrooted : IsRooted tables source original) : IsRooted tables view column

theorem IsRooted.mem {tables : List Table} {table : Table} {column : Column}
    (hrooted : IsRooted tables table column) : table ∈ tables ∧ column ∈ table.columns := by
  cases hrooted with
  | original hmem hcolumn _ => exact ⟨hmem, hcolumn⟩
  | derived hmem hcolumn _ _ _ => exact ⟨hmem, hcolumn⟩

/-- The column has its origin in a base table, or comes from nowhere. -/
def HasOrigin (tables : List Table) (table : Table) (column : Column) : Prop :=
  IsRooted tables table column ∨ ComesFromNowhere tables table column

/-- Tables of the same name are the same. -/
theorem WellNamed.eq_of_name_eq {tables : List Table} (hnamed : WellNamed tables)
    {left right : Table} (hleft : left ∈ tables) (hright : right ∈ tables)
    (hname : left.name = right.name) : left = right :=
  eq_of_distinctNames Table.name hnamed.distinctTables hleft hright (by simp [hname])

namespace Sql

section Script

variable {statements : List Statement}

/-- The views of a script before any links. -/
def readViews (statements : List Statement) : List ResolvedView :=
  resolveViews statements (baseTables statements)

/-- The tables and views of a script before any links. -/
def readTablesAndViews (statements : List Statement) : List Table :=
  baseTables statements ++ (readViews statements).map ResolvedView.table

/-- The tables and linked views of a script before cardinalities are attached. -/
def linkedTables (statements : List Statement) : List Table :=
  baseTables statements ++ linkViews (baseTables statements) (readViews statements)

theorem mem_linkedTables {view : ResolvedView} (hview : view ∈ readViews statements) :
    linkView (readTablesAndViews statements) view ∈ linkedTables statements :=
  List.mem_append_right _ (List.mem_map_of_mem hview)

/-- How the tables of a schema are finished: cardinalities are attached to the
references among all of them, and they are drawn. -/
def Finishes (all : List Table) (finish : Table → Table) : Prop :=
  ∀ table, (finish table).name = table.name ∧ (finish table).isView = table.isView ∧
    (finish table).columns = table.columns.map (withCardinality all)

/-- The tables of a schema are finished tables and linked views. -/
theorem assign_schemaTables (config : CategoryConfig) (statements : List Statement) :
    ∃ finish, Finishes (linkedTables statements) finish ∧
      config.assign (schemaTables statements) = (linkedTables statements).map finish := by
  obtain ⟨draw, hassign, hdraw⟩ := config.assign_eq_map (schemaTables statements)
  refine ⟨fun table => draw { table with
    columns := table.columns.map (withCardinality (linkedTables statements)) }, ?_, ?_⟩
  · intro table
    obtain ⟨hname, hcolumns, hview⟩ := hdraw { table with
      columns := table.columns.map (withCardinality (linkedTables statements)) }
    exact ⟨hname, hview, hcolumns⟩
  · rw [hassign]
    exact List.map_map

section Columns

variable {finish : Table → Table}
  (hdistinct : DistinctNames ((viewDefinitions statements).map ViewDefinition.name))
  (hdeclared : ∀ statement ∈ statements, statement.IsDeclared)

include hdistinct

theorem readViews_isResolved : ∀ view ∈ readViews statements,
    IsResolved (readTablesAndViews statements) view :=
  (resolveViews_areResolved _ hdistinct).isResolved

include hdeclared

theorem readTablesAndViews_wellNamed : WellNamed (readTablesAndViews statements) :=
  (resolveViews_areResolved _ hdistinct).wellNamed (baseTables_isBase hdeclared).named

omit hdistinct in
theorem finished_wellFormed (hfinish : Finishes (linkedTables statements) finish) :
    WellFormed ((linkedTables statements).map finish) :=
  (wellFormed_append (baseTables_isBase hdeclared) (schemaTables_areViews hdeclared)).map
    (withCardinality _) (withCardinality_keeps _) fun table =>
      ⟨(hfinish table).1, (hfinish table).2.2, (hfinish table).2.1⟩

omit hdistinct in
/-- The tables that are no views are the base tables, finished. -/
theorem finished_bases (hfinish : Finishes (linkedTables statements) finish) :
    ((linkedTables statements).map finish).filter (fun table => !table.isView) =
      (baseTables statements).map finish := by
  have hbases : ((baseTables statements).map finish).filter (fun table => !table.isView) =
      (baseTables statements).map finish := by
    rw [List.filter_eq_self, List.forall_mem_map]
    intro table hmem
    rw [(hfinish table).2.1, (baseTables_isBase hdeclared).noViews table hmem, Bool.not_false]
  have hviews : ((linkViews (baseTables statements) (readViews statements)).map finish).filter
      (fun table => !table.isView) = [] := by
    rw [List.filter_eq_nil_iff, List.forall_mem_map]
    intro view hmem
    rw [(hfinish view).2.1, ((schemaTables_areViews hdeclared).each view hmem).isView]
    simp
  rw [linkedTables, List.map_append, List.filter_append, hbases, hviews, List.append_nil]

omit hdistinct in
/-- The others are the views, each linked and finished. -/
theorem exists_readView (hfinish : Finishes (linkedTables statements) finish) {table : Table}
    (hmem : table ∈ (linkedTables statements).map finish) (hview : table.isView = true) :
    ∃ view ∈ readViews statements,
      table = finish (linkView (readTablesAndViews statements) view) := by
  obtain ⟨linked, hlinked, rfl⟩ := List.mem_map.1 hmem
  rw [(hfinish linked).2.1] at hview
  rcases List.mem_append.1 hlinked with hbase | hin
  · rw [(baseTables_isBase hdeclared).noViews linked hbase] at hview
    cases hview
  · obtain ⟨view, hread, rfl⟩ := List.mem_map.1 hin
    exact ⟨view, hread, rfl⟩

variable (hfinish : Finishes (linkedTables statements) finish)

include hfinish

/-- A column that is read is there in the end, with its name and its type. -/
theorem exists_finished {table : Table} (htable : table ∈ readTablesAndViews statements)
    {column : Column} (hcolumn : column ∈ table.columns) :
    ∃ finished ∈ (linkedTables statements).map finish, finished.name = table.name ∧
      ∃ kept ∈ finished.columns, kept.name = column.name ∧ kept.type = column.type := by
  rcases List.mem_append.1 htable with hbase | hread
  · refine ⟨_, List.mem_map_of_mem (List.mem_append_left _ hbase), (hfinish table).1, ?_⟩
    rw [(hfinish table).2.2]
    exact ⟨_, List.mem_map_of_mem hcolumn, rfl, rfl⟩
  · obtain ⟨view, hview, rfl⟩ := List.mem_map.1 hread
    have hlinked := linkView_eq (readTablesAndViews_wellNamed hdistinct hdeclared)
      (readViews_isResolved hdistinct view hview)
    refine ⟨_, List.mem_map_of_mem (mem_linkedTables hview), ?_, ?_⟩
    · rw [(hfinish _).1, hlinked]
    · rw [(hfinish _).2.2, hlinked]
      exact ⟨_, List.mem_map_of_mem (List.mem_append_left _ (List.mem_map_of_mem hcolumn)),
        linkNamed_name _ column, linkNamed_type _ column⟩

omit hdistinct hdeclared in
/-- A column of a view is a link, or what has become of a column that the view was
read with. -/
theorem finished_view_column {view : ResolvedView} {column : Column}
    (hcolumn : column ∈ (finish (linkView (readTablesAndViews statements) view)).columns) :
    column.sourceTable = none ∨ ∃ original ∈ view.table.columns,
      column.sourceTable = original.sourceTable ∧ column.sourceColumn = original.sourceColumn ∧
        column.type = original.type := by
  rw [(hfinish _).2.2] at hcolumn
  obtain ⟨linked, hlinked, rfl⟩ := List.mem_map.1 hcolumn
  have hkept := mem_linkView_columns hlinked
  exact hkept

/-- A finished column that is taken from another has the type of that column. -/
theorem finished_isTraced : ∀ table ∈ (linkedTables statements).map finish,
    ∀ column ∈ table.columns, IsTraced ((linkedTables statements).map finish) column := by
  intro table htable column hcolumn source name hsource hname
  obtain ⟨linked, hlinked, rfl⟩ := List.mem_map.1 htable
  rcases List.mem_append.1 hlinked with hbase | hlinkedView
  · rw [(hfinish linked).2.2] at hcolumn
    obtain ⟨original, horiginal, rfl⟩ := List.mem_map.1 hcolumn
    have hnone : original.sourceTable = none :=
      ((baseTables_isBase hdeclared).noLineage linked hbase original horiginal).1
    exact absurd (hnone.symm.trans hsource) (by simp)
  · obtain ⟨view, hview, rfl⟩ := List.mem_map.1 hlinkedView
    rcases finished_view_column hfinish hcolumn with
      hnone | ⟨original, horiginal, htable, hcolumn, htype⟩
    · exact absurd (hnone.symm.trans hsource) (by simp)
    · have hselected := ((readViews_isResolved hdistinct view hview).columns original horiginal).mono
        fun table htable => (List.mem_filter.1 htable).1
      obtain ⟨found, hfound, rfl, taken, htaken, rfl, hsame⟩ :=
        hselected.isTraced source name (htable ▸ hsource) (hcolumn ▸ hname)
      obtain ⟨finished, hfinished, hname, kept, hkept, hkeptName, hkeptType⟩ :=
        exists_finished hdistinct hdeclared hfinish hfound htaken
      exact ⟨finished, hfinished, hname, kept, hkept, hkeptName,
        hkeptType.trans (hsame.trans htype.symm)⟩

theorem finished_linkView {view : ResolvedView} (hview : view ∈ readViews statements) :
    (finish (linkView (readTablesAndViews statements) view)).name = view.table.name ∧
      (finish (linkView (readTablesAndViews statements) view)).isView = true := by
  have hresolved := readViews_isResolved hdistinct view hview
  rw [(hfinish _).1, (hfinish _).2.1,
    linkView_eq (readTablesAndViews_wellNamed hdistinct hdeclared) hresolved]
  exact ⟨rfl, by rw [hresolved.drawn]⟩

/-- The columns of a view have an origin if those it is taken from have one. -/
theorem finished_view_hasOrigin {before : List Table} {view : ResolvedView}
    (hview : view ∈ readViews statements) (hresolved : IsResolved before view)
    (hread : ∀ known ∈ before, known ∈ readTablesAndViews statements)
    (hbefore : ∀ known ∈ before, ∀ table ∈ (linkedTables statements).map finish,
      table.name = known.name → ∀ column ∈ table.columns,
        HasOrigin ((linkedTables statements).map finish) table column) :
    ∀ column ∈ (finish (linkView (readTablesAndViews statements) view)).columns,
      HasOrigin ((linkedTables statements).map finish)
        (finish (linkView (readTablesAndViews statements) view)) column := by
  intro column hcolumn
  obtain ⟨-, hisView⟩ := finished_linkView hdistinct hdeclared hfinish hview
  rcases finished_view_column hfinish hcolumn with
    hnone | ⟨original, horiginal, hsource, hsourceColumn, -⟩
  · exact Or.inr (.original hisView hnone)
  · have hselected := hresolved.columns original horiginal
    cases hselected with
    | @derived source taken hknown htaken aliasName =>
      have hmem := (List.mem_filter.1 hknown).1
      obtain ⟨finished, hfinished, hname, kept, hkept, hkeptName, -⟩ :=
        exists_finished hdistinct hdeclared hfinish (hread source hmem) htaken
      have htable : column.sourceTable = some finished.name := by
        rw [hsource, hname]
        rfl
      have htakenColumn : column.sourceColumn = some kept.name := by
        rw [hsourceColumn, hkeptName]
        rfl
      exact (hbefore source hmem finished hfinished hname kept hkept).imp
        (.derived (List.mem_map_of_mem (mem_linkedTables hview)) hcolumn htable htakenColumn)
        (.derived hfinished hkept htable htakenColumn)
    | plain name type => exact Or.inr (.original hisView hsource)

/-- The columns of tables and views have an origin as far as these have been read. -/
theorem hasOrigin_of_areResolved {views : List ResolvedView}
    (hviews : AreResolved (baseTables statements) views)
    (hsubset : ∀ view ∈ views, view ∈ readViews statements) :
    ∀ known ∈ baseTables statements ++ views.map ResolvedView.table,
      ∀ table ∈ (linkedTables statements).map finish, table.name = known.name →
        ∀ column ∈ table.columns, HasOrigin ((linkedTables statements).map finish) table column := by
  have hnamed := (finished_wellFormed hdeclared hfinish).wellNamed
  -- by induction on the views in the order in which they are read, for a column is taken from
  -- one that was there before
  induction hviews with
  | nil =>
    intro known hknown table htable hname column hcolumn
    rw [List.map_nil, List.append_nil] at hknown
    have hlinked : known ∈ linkedTables statements := List.mem_append_left _ hknown
    obtain rfl := hnamed.eq_of_name_eq htable (List.mem_map_of_mem hlinked)
      (hname.trans (hfinish known).1.symm)
    have hbase := (baseTables_isBase hdeclared).noViews known hknown
    exact Or.inl (.original htable hcolumn ((hfinish known).2.1.trans hbase))
  | @snoc views view hviews hresolved hfree ih =>
    obtain ⟨hearlier, hlast⟩ := List.forall_mem_append.1 hsubset
    have hview := hlast view List.mem_cons_self
    have hread : ∀ known ∈ baseTables statements ++ views.map ResolvedView.table,
        known ∈ readTablesAndViews statements := by
      intro known hknown
      refine List.mem_append.2 ((List.mem_append.1 hknown).imp_right fun hmem => ?_)
      obtain ⟨other, hother, rfl⟩ := List.mem_map.1 hmem
      exact List.mem_map_of_mem (hearlier other hother)
    rw [List.map_append, List.map_singleton, ← List.append_assoc, List.forall_mem_append,
      List.forall_mem_singleton]
    refine ⟨ih hearlier, fun table htable hname => ?_⟩
    obtain ⟨hviewName, -⟩ := finished_linkView hdistinct hdeclared hfinish hview
    obtain rfl := hnamed.eq_of_name_eq htable (List.mem_map_of_mem (mem_linkedTables hview))
      (hname.trans hviewName.symm)
    exact finished_view_hasOrigin hdistinct hdeclared hfinish hview hresolved hread (ih hearlier)

theorem exists_read_of_finished : ∀ table ∈ (linkedTables statements).map finish,
    ∃ known ∈ readTablesAndViews statements, table.name = known.name := by
  rw [List.forall_mem_map]
  intro linked hmem
  rcases List.mem_append.1 hmem with hbase | hlinked
  · exact ⟨linked, List.mem_append_left _ hbase, (hfinish linked).1⟩
  · obtain ⟨view, hview, rfl⟩ := List.mem_map.1 hlinked
    exact ⟨view.table, List.mem_append_right _ (List.mem_map_of_mem hview),
      (finished_linkView hdistinct hdeclared hfinish hview).1⟩

/-- Every finished column has its origin in a base table or comes from nowhere. -/
theorem finished_hasOrigin : ∀ table ∈ (linkedTables statements).map finish,
    ∀ column ∈ table.columns, HasOrigin ((linkedTables statements).map finish) table column := by
  intro table htable
  obtain ⟨known, hknown, hname⟩ := exists_read_of_finished hdistinct hdeclared hfinish table htable
  exact hasOrigin_of_areResolved hdistinct hdeclared hfinish (resolveViews_areResolved _ hdistinct)
    (fun _ hview => hview) known hknown table htable hname

end Columns

end Script

end Sql

end Crowfoot
