import Crowfoot.Proofs.Schema.Counts
import Crowfoot.Proofs.Schema.Kept
import Crowfoot.Proofs.Sql.Contents
import Crowfoot.Proofs.Sql.Redefined

/-!
# Mentioned tables

A view refers to every table or view that its `FROM` clause names, provided that it
was known when the view was read: a column that is selected inherits the reference,
or the view gets a column for the link behind its own ones.  It gets none for a table
that a selected column refers to, and none twice.
-/

namespace Crowfoot.Sql

/-! ## Read views -/

/-- The tables and views that are known once some views are defined. -/
def knownAfter (tables : List Table) (definitions : List ViewDefinition) : List Table :=
  tables ++ (viewsAfter tables definitions).map ResolvedView.table

/-- The tables and views that the `FROM` clause of a view names, as far as they are known. -/
def mentionedTables (known : List Table) (definition : ViewDefinition) : List Table :=
  definition.sources.filterMap fun source => findTable? known source.table

/-- The columns of a view before any links: each selected name once, where it is selected first
and as it is selected last. -/
def viewColumns (known : List Table) (definition : ViewDefinition) : List Column :=
  if (selectedColumns known definition).isEmpty then placeholderColumns
  else latest Column.name (selectedColumns known definition)

theorem latest_isEmpty (columns : List Column) :
    (latest Column.name columns).isEmpty = columns.isEmpty := by
  cases columns with
  | nil => rfl
  | cons first rest =>
    obtain ⟨found, hmem, -⟩ := exists_mem_latest Column.name (List.mem_cons_self (a := first))
    rw [List.isEmpty_cons, List.isEmpty_eq_false_iff_exists_mem]
    exact ⟨found, hmem⟩

theorem resolveView_columns (known : List Table) (definition : ViewDefinition) :
    (resolveView known definition).table.columns = viewColumns known definition := by
  have hput : ((selectedColumns known definition).foldl Table.upsertColumn
      { name := definition.name, isView := true }).columns =
        latest Column.name (selectedColumns known definition) :=
    (columns_foldl_upsertColumn _ _).trans (foldl_putNamed Column.name _)
  rw [resolveView]
  dsimp only
  rw [← selectedColumns, hput, latest_isEmpty, viewColumns]
  split
  · rfl
  · exact hput

theorem mem_mentioned {known : List Table} {definition : ViewDefinition} {name : String} :
    name ∈ (resolveView known definition).mentioned ↔
      ∃ table ∈ mentionedTables known definition, table.name = name := by
  simp only [resolveView, List.mem_eraseDups, List.mem_map]
  rfl

section Definitions

variable {tables : List Table} (hbase : IsBase tables)

include hbase

theorem knownAfter_wellNamed (definitions : List ViewDefinition) :
    WellNamed (knownAfter tables definitions) :=
  (wellFormed_append hbase (foldl_addView_areViews hbase definitions)).wellNamed

/-- What a view mentions is known for good, though it may be defined again. -/
theorem viewsAfter_isLinkable {definitions : List ViewDefinition} {view : ResolvedView}
    (hview : view ∈ viewsAfter tables definitions) :
    IsLinkable (knownAfter tables definitions) view := by
  obtain ⟨before, last, after, rfl, hread, -⟩ := exists_definition_of_mem_viewsAfter hbase hview
  obtain ⟨-, hresolved⟩ := resolveView_isResolved (knownAfter tables before) last
  rw [knownAfter, ← hread] at hresolved
  refine ⟨(hresolved.isLinkable (knownAfter_wellNamed hbase before)).distinct, ?_⟩
  intro name hname
  obtain ⟨table, htable, rfl⟩ := List.mem_map.1 (hresolved.mentioned name hname)
  have hthere : ∃ kept ∈ knownAfter tables (before ++ last :: after),
      Text.sameName kept.name table.name = true := by
    rcases List.mem_append.1 htable with hown | hdefined
    · exact ⟨table, List.mem_append_left _ hown, Text.sameName_refl _⟩
    · obtain ⟨earlier, hearlier, rfl⟩ := List.mem_map.1 hdefined
      obtain ⟨kept, hkept, hsame⟩ := exists_sameName_viewsAfter_append hearlier (last :: after)
      exact ⟨kept.table, List.mem_append_right _ (List.mem_map_of_mem hkept), hsame⟩
  obtain ⟨found, hfound⟩ := Option.isSome_iff_exists.1 (List.find?_isSome.2 hthere)
  exact ⟨found, hfound, (knownAfter_wellNamed hbase _).nonempty found (findTable?_mem hfound)⟩

end Definitions

/-! ## Links -/

theorem keepsColumn_linkNamed (known : List Table) (column : Column) :
    KeepsColumn column (linkNamed known column) := by
  rcases linkNamed_cases known column with heq | ⟨table, -, -, key, -, hnone, heq⟩
  · rw [heq]
    exact .refl column
  · rw [heq]
    exact ⟨rfl, by simp [hnone]⟩

theorem keepsColumn_withCardinality (tables : List Table) (column : Column) :
    KeepsColumn column (withCardinality tables column) := by
  refine ⟨rfl, fun reference hreference => ?_⟩
  exact ⟨_, Option.map_eq_some_iff.2 ⟨reference, hreference, rfl⟩, rfl⟩

/-- Names of different tables make names of different links. -/
theorem distinctNames_linkColumns (known : List Table) {names : List String}
    (hdistinct : DistinctNames names) :
    DistinctNames ((linkColumns known names).map Column.name) := by
  have hlink {name : String} {link : Column}
      (hlink : (findTable? known name).bind (fun table =>
        (linkTarget? table).map (linkColumn table)) = some link) :
      Text.sameName link.name (Column.linkMark ++ name) = true := by
    obtain ⟨table, hfound, hcolumn⟩ := Option.bind_eq_some_iff.1 hlink
    obtain ⟨target, -, rfl⟩ := Option.map_eq_some_iff.1 hcolumn
    have hname := List.find?_some hfound
    exact (sameName_linkMark table.name name).trans hname
  rw [DistinctNames, List.pairwise_map, linkColumns, List.pairwise_filterMap]
  refine hdistinct.imp fun hdiffer left hleft right hright => ?_
  rw [Text.sameName_congr (hlink hleft), Text.sameName_congr_right (hlink hright),
    sameName_linkMark, hdiffer]

/-- The columns of a view are those it selects, kept in their order, and links behind them: one
at most to each mentioned table, for those only that no selected column refers to. Some column
refers to each mentioned table unless a selected one has the name of the link. -/
structure LinksMentioned (mentioned : List Table) (selected own links : List Column) : Prop where
  kept : List.Forall₂ KeepsColumn selected own
  wanted : ∀ link ∈ links, ∃ table ∈ mentioned,
    Text.sameName link.name (Column.linkMark ++ table.name) = true ∧
      (∃ reference ∈ link.references, Text.sameName reference.table table.name = true) ∧
      ∀ column ∈ selected, ∀ reference ∈ column.references,
        Text.sameName reference.table table.name = false
  once : DistinctNames (links.map Column.name)
  linked : ∀ table ∈ mentioned,
    (∃ column ∈ own ++ links, ∃ reference ∈ column.references,
      Text.sameName reference.table table.name = true) ∨
    ∃ column ∈ selected, Text.sameName column.name (Column.linkMark ++ table.name) = true

section Linked

variable {known : List Table} {view : ResolvedView} {mentioned : List Table}
  (hview : IsLinkable known view)
  (hmentioned : ∀ name, name ∈ view.mentioned ↔ ∃ table ∈ mentioned, table.name = name)

include hview

/-- What a wanted link is called and where it leads. -/
theorem exists_link {name : String} (hname : name ∈ view.mentioned) :
    ∃ link, (findTable? known name).bind (fun table =>
        (linkTarget? table).map (linkColumn table)) = some link ∧
      Text.sameName link.name (Column.linkMark ++ name) = true ∧
      ∃ reference ∈ link.references, Text.sameName reference.table name = true := by
  obtain ⟨table, hfound, hsome⟩ := hview.found name hname
  obtain ⟨target, htarget⟩ := exists_linkTarget? hsome
  have hsame := List.find?_some hfound
  exact ⟨linkColumn table target, by rw [hfound, Option.bind_some, htarget, Option.map_some],
    (sameName_linkMark table.name name).trans hsame, _, rfl, hsame⟩

include hmentioned

/-- A linked view that is finished links what it mentions. -/
theorem linksMentioned_linkView (all : List Table) :
    LinksMentioned mentioned view.table.columns
      ((view.table.columns.map (linkNamed known)).map (withCardinality all))
      ((linkColumns known (wantedLinks view)).map (withCardinality all)) where
  kept := by
    rw [List.map_map, List.forall₂_map_right_iff, List.forall₂_same]
    exact fun column _ =>
      (keepsColumn_linkNamed known column).trans (keepsColumn_withCardinality all _)
  wanted := by
    rw [List.forall_mem_map]
    intro link hlink
    obtain ⟨name, hwanted, hcolumn⟩ := List.mem_filterMap.1 hlink
    obtain ⟨hname, hunlinked⟩ := List.mem_filter.1 hwanted
    obtain ⟨made, hmade, hlinkName, reference, hreference, htarget⟩ := exists_link hview hname
    obtain rfl : link = made := Option.some.inj (hcolumn.symm.trans hmade)
    obtain ⟨table, htable, rfl⟩ := (hmentioned name).1 hname
    obtain ⟨kept, hkept, hsame⟩ :=
      (keepsColumn_withCardinality all link).target reference hreference
    refine ⟨table, htable, hlinkName, ⟨kept, hkept, hsame ▸ htarget⟩, ?_⟩
    intro column hmem other hother
    rw [Bool.eq_false_iff]
    intro hrefers
    have hany : (view.table.columns.any fun column => column.references.any fun reference =>
        Text.sameName reference.table table.name) = true :=
      List.any_eq_true.2 ⟨column, hmem, (Option.any_eq_true _ _).2 ⟨other, hother, hrefers⟩⟩
    simp [isUnlinked, hany] at hunlinked
  once := by
    rw [List.map_map]
    exact distinctNames_linkColumns known (hview.distinct.sublist List.filter_sublist)
  linked := by
    intro table htable
    have hname : table.name ∈ view.mentioned := (hmentioned table.name).2 ⟨table, htable, rfl⟩
    by_cases hunlinked : isUnlinked view.table table.name = true
    · obtain ⟨link, hlink, -, reference, hreference, htarget⟩ := exists_link hview hname
      have hmem : link ∈ linkColumns known (wantedLinks view) :=
        List.mem_filterMap.2 ⟨table.name, List.mem_filter.2 ⟨hname, hunlinked⟩, hlink⟩
      obtain ⟨kept, hkept, hsame⟩ :=
        (keepsColumn_withCardinality all link).target reference hreference
      exact Or.inl ⟨_, List.mem_append_right _ (List.mem_map_of_mem hmem), kept, hkept,
        hsame ▸ htarget⟩
    · rw [isUnlinked, Bool.and_eq_true, not_and_or, Bool.not_eq_true, Bool.not_eq_false',
        Option.isNone_iff_eq_none] at hunlinked
      rcases hunlinked with hany | htaken
      · obtain ⟨column, hmem, hrefers⟩ := List.any_eq_true.1 hany
        obtain ⟨reference, hreference, htarget⟩ := (Option.any_eq_true _ _).1 hrefers
        obtain ⟨kept, hkept, hsame⟩ := ((keepsColumn_linkNamed known column).trans
          (keepsColumn_withCardinality all _)).target reference hreference
        exact Or.inl ⟨_, List.mem_append_left _ (List.mem_map_of_mem (List.mem_map_of_mem hmem)),
          kept, hkept, hsame ▸ htarget⟩
      · obtain ⟨column, hcolumn⟩ := Option.ne_none_iff_exists'.1 htaken
        have hsame := List.find?_some hcolumn
        exact Or.inr ⟨column, List.mem_of_find?_eq_some hcolumn, hsame⟩

theorem exists_linksMentioned (all : List Table) :
    ∃ own links, (linkView known view).columns.map (withCardinality all) = own ++ links ∧
      LinksMentioned mentioned view.table.columns own links :=
  ⟨_, _, by rw [hview.linkView_eq, List.map_append], linksMentioned_linkView hview hmentioned all⟩

end Linked

/-! ## Schemas -/

/-- Every view has the columns that its last definition gives it, and links what that
definition mentions. -/
def LinksViews (columnsOf : List Table → ViewDefinition → List Column)
    (statements : List Statement) (tables : List Table) : Prop :=
  ∀ view ∈ tables, view.isView = true → ∃ before definition after,
    viewDefinitions statements = before ++ definition :: after ∧
      definition.name = view.name ∧
      (∀ later ∈ after, Text.sameName later.name view.name = false) ∧
      ∃ own links, view.columns = own ++ links ∧
        LinksMentioned (mentionedTables (knownAfter (baseTables statements) before) definition)
          (columnsOf (knownAfter (baseTables statements) before) definition) own links

section Script

variable {statements : List Statement} {finish : Table → Table}
  (hdeclared : ∀ statement ∈ statements, statement.IsDeclared)
  (hfinish : Finishes (linkedTables statements) finish)

include hdeclared hfinish

/-- A view of a schema is what its last definition is read as, linked and finished. -/
theorem exists_definition_of_isView {table : Table}
    (hmem : table ∈ (linkedTables statements).map finish) (hview : table.isView = true) :
    ∃ before last after, viewDefinitions statements = before ++ last :: after ∧
      last.name = table.name ∧ (∀ later ∈ after, Text.sameName later.name table.name = false) ∧
      ∃ view ∈ readViews statements,
        view = resolveView (knownAfter (baseTables statements) before) last ∧
          table = finish (linkView (readTablesAndViews statements) view) := by
  obtain ⟨view, hread, rfl⟩ := exists_readView hdeclared hfinish hmem hview
  have hbase := baseTables_isBase hdeclared
  obtain ⟨before, last, after, hdefinitions, hresolved, hlater⟩ :=
    exists_definition_of_mem_viewsAfter hbase hread
  have hname : view.table.name = last.name := hresolved ▸ (resolveView_isResolved _ last).1
  have hlinked : (linkView (readTablesAndViews statements) view).name = view.table.name :=
    (linkView_isView_of_mem (resolveViews_areViews hbase statements) hread).2.name_eq
  have hfinished := (hfinish (linkView (readTablesAndViews statements) view)).1.trans hlinked
  exact ⟨before, last, after, hdefinitions, (hfinished.trans hname).symm,
    by rwa [hfinished], view, hread, hresolved, rfl⟩

theorem finished_linksViews :
    LinksViews viewColumns statements ((linkedTables statements).map finish) := by
  intro table hmem hview
  obtain ⟨before, last, after, hdefinitions, hname, hlater, view, hread, rfl, rfl⟩ :=
    exists_definition_of_isView hdeclared hfinish hmem hview
  have hlinkable := viewsAfter_isLinkable (baseTables_isBase hdeclared) hread
  obtain ⟨own, links, hcolumns, hlinks⟩ :=
    exists_linksMentioned hlinkable (fun _ => mem_mentioned) (linkedTables statements)
  rw [resolveView_columns] at hlinks
  exact ⟨before, last, after, hdefinitions, hname, hlater, own, links,
    (hfinish _).2.2.trans hcolumns, hlinks⟩

end Script

/-- In every schema that is read from a script the views link what they mention. -/
theorem readSchema?_linksViews {config : CategoryConfig} {text : String} {schema : Schema}
    (hread : readSchema? config text = some schema) :
    LinksViews viewColumns (Statement.ofScript text.toList) schema.tables := by
  obtain ⟨finish, hfinish, hassign⟩ := assign_schemaTables config (Statement.ofScript text.toList)
  rw [readSchema?_tables hread, hassign]
  exact finished_linksViews ofScript_isDeclared hfinish

/-- A view that selects two columns under one name, the first of which refers to a table that the
view mentions. -/
def twiceScript : String :=
  "CREATE TABLE t (id INT PRIMARY KEY);CREATE TABLE a (x INT REFERENCES t(id));" ++
    "CREATE VIEW v AS SELECT a.x, t.id AS x FROM a, t;"

theorem readSchema?_twiceScript_linksViews :
    ∃ schema, readSchema? .standard twiceScript = some schema ∧
      LinksViews viewColumns (Statement.ofScript twiceScript.toList) schema.tables := by
  have hsome : (readSchema? .standard twiceScript).isSome = true := by decide +kernel
  obtain ⟨schema, hread⟩ := Option.isSome_iff_exists.1 hsome
  exact ⟨schema, hread, readSchema?_linksViews hread⟩

/-- The tables that are defined in the script. -/
def twiceTables : List Statement :=
  [.createTable ⟨"t", [({ name := "id", type := "INT" } : Column).asPrimaryKey], []⟩,
    .createTable ⟨"a", [{ name := "x", type := "INT" }], [⟨"x", "t", some "id"⟩]⟩]

/-- The view that is defined in the script. -/
def twiceView : ViewDefinition :=
  ⟨"v", [⟨.column (some "a") "x", none⟩, ⟨.column (some "t") "id", some "x"⟩],
    [⟨"a", none⟩, ⟨"t", none⟩]⟩

theorem ofScript_twiceScript :
    Statement.ofScript twiceScript.toList = twiceTables ++ [twiceView].map .createView := by
  have hnames : ∀ name ∈ ["a", "id", "t", "v", "x"], IsBareName name := by decide +kernel
  simp only [List.forall_mem_cons] at hnames
  obtain ⟨ha, hid, ht, hv, hx, -⟩ := hnames
  have hwritten : IsWrittenView twiceView := by
    refine ⟨hv, List.cons_ne_nil _ _, ?_, ?_⟩
    · exact List.forall_mem_cons.2 ⟨.derived ha hx (by simp),
        List.forall_mem_singleton.2 (.derived ht hid (by simpa using hx))⟩
    · exact List.forall_mem_cons.2 ⟨⟨ha, rfl⟩, List.forall_mem_singleton.2 ⟨ht, rfl⟩⟩
  have hpieces :
      let pieces := scriptStatements twiceScript.toList
      (pieces.take 2).map Statement.ofLexemes? = twiceTables.map some ∧
        (pieces.drop 2).map (·.map Lexeme.spelling) = [twiceView].map viewSpellings := by
    decide +kernel
  exact ofScript_of_spellings twiceTables hpieces.1 hpieces.2 (List.forall_mem_singleton.2 hwritten)

/-- Of two columns that are selected under one name the first is not kept. -/
theorem readSchema?_twiceScript_unkept :
    ∃ schema, readSchema? .standard twiceScript = some schema ∧
      ¬ LinksViews selectedColumns (Statement.ofScript twiceScript.toList) schema.tables := by
  have hnames : ((readSchema? .standard twiceScript).map fun schema =>
      schema.tables.any fun table => table.isView &&
        table.columns.map Column.name == ["x", "_ref_a", "_ref_t"]) = some true := by
    rw [readSchema?, ofScript_twiceScript]
    decide +kernel
  obtain ⟨schema, hread, hany⟩ := Option.map_eq_some_iff.1 hnames
  refine ⟨schema, hread, fun hlinks => ?_⟩
  obtain ⟨view, hmem, htest⟩ := List.any_eq_true.1 hany
  obtain ⟨hview, hcolumns⟩ := Bool.and_eq_true_iff.1 htest
  obtain ⟨before, definition, after, hdefinitions, -, -, own, links, hparts, hkept, -⟩ :=
    hlinks view hmem hview
  rw [ofScript_twiceScript] at hdefinitions hkept
  have hselected : (selectedColumns (knownAfter
      (baseTables (twiceTables ++ [twiceView].map .createView)) []) twiceView).map Column.name =
        ["x", "x"] := by
    decide +kernel
  have hfirst : before = [] ∧ definition = twiceView := by
    have hone : [twiceView] = before ++ definition :: after := hdefinitions
    rcases List.append_eq_singleton_iff.1 hone.symm with ⟨hnil, hlast⟩ | ⟨-, hnone⟩
    · exact ⟨hnil, (List.cons.inj hlast).1⟩
    · cases hnone
  obtain ⟨rfl, rfl⟩ := hfirst
  have hown : own.map Column.name = ["x", "x"] :=
    (map_eq_of_forall₂ (hkept.imp fun _ _ hkeeps => hkeeps.name.symm)).symm.trans hselected
  rw [beq_iff_eq, hparts, List.map_append, hown] at hcolumns
  simp at hcolumns

end Crowfoot.Sql
