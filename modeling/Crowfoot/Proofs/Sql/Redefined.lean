import Crowfoot.Proofs.Sql.Origins
import Crowfoot.Proofs.Sql.ReadViews

/-!
# Redefined views

A view that is defined again takes the place of the earlier one, but what was read
against the earlier one stays as it is.  So a column of a view still says which
column it was taken from when that column is gone.  It can only be gone with a view
that was there before the column's own view was defined and has been defined again
since; a view of that name is still in the schema.
-/

namespace Crowfoot.Sql

/-! ## One definition after the other -/

section Definition

variable {tables : List Table} {views : List ResolvedView}

/-- A view that is there after a definition is the one defined, or it was there before under
another name. -/
theorem mem_addView (hviews : AreViews tables tables (views.map ResolvedView.table))
    {definition : ViewDefinition} {view : ResolvedView}
    (hmem : view ∈ addView tables views definition) :
    view = resolveView (tables ++ views.map ResolvedView.table) definition ∨
      view ∈ views ∧ Text.sameName definition.name view.table.name = false := by
  rw [addView] at hmem
  split at hmem
  · rename_i htaken
    obtain ⟨table, htable⟩ := Option.isSome_iff_exists.1 htaken
    have hsame : Text.sameName table.name definition.name = true := by
      simpa using List.find?_some htable
    refine Or.inr ⟨hmem, ?_⟩
    rw [← Text.sameName_congr hsame]
    exact hviews.apart table (findTable?_mem htable) view.table (List.mem_map_of_mem hmem)
  · obtain ⟨hname, -⟩ :=
      resolveView_isResolved (tables ++ views.map ResolvedView.table) definition
    rw [← hname] at hmem ⊢
    have hdistinct := hviews.distinct
    rw [List.map_map] at hdistinct
    exact (mem_putFirst_of_distinctNames (Table.name ∘ ResolvedView.table) hdistinct
      hmem).imp_right fun hkept => ⟨hkept.1, (Text.sameName_comm _ _).trans hkept.2⟩

/-- A view stays when a view of another name is defined. -/
theorem mem_addView_of_mem {definition : ViewDefinition} {view : ResolvedView}
    (hmem : view ∈ views) (hother : Text.sameName definition.name view.table.name = false) :
    view ∈ addView tables views definition := by
  rw [addView]
  split
  · exact hmem
  · exact mem_putFirst_of_mem hmem ((Text.sameName_comm _ _).trans hother)

/-- There is a view of the same name after a definition. -/
theorem exists_sameName_addView (definition : ViewDefinition) {view : ResolvedView}
    (hmem : view ∈ views) :
    ∃ kept ∈ addView tables views definition,
      Text.sameName kept.table.name view.table.name = true := by
  by_cases hsame : Text.sameName definition.name view.table.name = true
  · rw [addView]
    split
    · exact ⟨view, hmem, Text.sameName_refl _⟩
    · refine ⟨_, self_mem_putFirst _ _ _, ?_⟩
      rw [(resolveView_isResolved _ definition).1, hsame]
  · exact ⟨view, mem_addView_of_mem hmem ((Bool.not_eq_true _).mp hsame), Text.sameName_refl _⟩

end Definition

/-! ## All definitions of a script -/

/-- The views that are there after some definitions. -/
def viewsAfter (tables : List Table) (definitions : List ViewDefinition) : List ResolvedView :=
  definitions.foldl (addView tables) []

section Definitions

variable {tables : List Table} {definitions : List ViewDefinition}

theorem viewsAfter_append (more : List ViewDefinition) :
    viewsAfter tables (definitions ++ more) =
      more.foldl (addView tables) (viewsAfter tables definitions) :=
  List.foldl_append

/-- A view is read against what was there when it was last defined. -/
theorem exists_definition_of_mem_viewsAfter (hbase : IsBase tables) {view : ResolvedView}
    (hmem : view ∈ viewsAfter tables definitions) :
    ∃ before last after, definitions = before ++ last :: after ∧
      view = resolveView (tables ++ (viewsAfter tables before).map ResolvedView.table) last ∧
      ∀ later ∈ after, Text.sameName later.name view.table.name = false := by
  induction definitions using List.reverseRecOn with
  | nil => cases hmem
  | append_singleton definitions definition ih =>
    rw [viewsAfter_append] at hmem
    rcases mem_addView (foldl_addView_areViews hbase definitions) hmem with
      hdefined | ⟨hold, hother⟩
    · exact ⟨definitions, definition, [], rfl, hdefined, List.forall_mem_nil _⟩
    · obtain ⟨before, last, after, rfl, hview, hlater⟩ := ih hold
      refine ⟨before, last, after ++ [definition], by simp, hview, ?_⟩
      exact List.forall_mem_append.2 ⟨hlater, List.forall_mem_singleton.2 hother⟩

/-- A view stays as long as no view of its name is defined. -/
theorem mem_viewsAfter_append {view : ResolvedView} (hmem : view ∈ viewsAfter tables definitions)
    {more : List ViewDefinition}
    (hothers : ∀ later ∈ more, Text.sameName later.name view.table.name = false) :
    view ∈ viewsAfter tables (definitions ++ more) := by
  rw [viewsAfter_append]
  refine List.foldlRecOn (motive := fun views => view ∈ views) more (addView tables) hmem ?_
  intro views hview later hlater
  exact mem_addView_of_mem hview (hothers later hlater)

/-- The name of a view stays, in one spelling or another. -/
theorem exists_sameName_viewsAfter_append {view : ResolvedView}
    (hmem : view ∈ viewsAfter tables definitions) (more : List ViewDefinition) :
    ∃ kept ∈ viewsAfter tables (definitions ++ more),
      Text.sameName kept.table.name view.table.name = true := by
  induction more using List.reverseRecOn with
  | nil => exact ⟨view, by simpa using hmem, Text.sameName_refl _⟩
  | append_singleton more definition ih =>
    obtain ⟨kept, hkept, hsame⟩ := ih
    rw [← List.append_assoc, viewsAfter_append]
    obtain ⟨last, hlast, hlastSame⟩ := exists_sameName_addView definition hkept
    exact ⟨last, hlast, Text.sameName_trans hlastSame hsame⟩

end Definitions

/-! ## Sources -/

/-- A view that stood in front of the last definition of another one is defined again by that
definition or behind it. -/
def IsRedefined (definitions : List ViewDefinition) (view source : String) : Prop :=
  ∃ before last after, definitions = before ++ last :: after ∧
    Text.sameName last.name view = true ∧
    (∀ later ∈ after, Text.sameName later.name view = false) ∧
    (∃ earlier ∈ before, Text.sameName earlier.name source = true) ∧
    ∃ later ∈ last :: after, Text.sameName later.name source = true

/-- The column that a column of a view is taken from is there, or it is gone with a view that
has been defined again since. -/
theorem hasColumn_or_isRedefined {tables : List Table} (hbase : IsBase tables)
    {definitions : List ViewDefinition} {view : ResolvedView}
    (hview : view ∈ viewsAfter tables definitions) {column : Column}
    (hcolumn : column ∈ view.table.columns) {source name : String}
    (hsource : column.sourceTable = some source) (hname : column.sourceColumn = some name) :
    HasColumn (tables ++ (viewsAfter tables definitions).map ResolvedView.table) source name ∨
      (∃ kept ∈ viewsAfter tables definitions, Text.sameName kept.table.name source = true) ∧
        IsRedefined definitions view.table.name source := by
  obtain ⟨before, last, after, rfl, hread, hlater⟩ :=
    exists_definition_of_mem_viewsAfter hbase hview
  obtain ⟨hlast, hresolved⟩ :=
    resolveView_isResolved (tables ++ (viewsAfter tables before).map ResolvedView.table) last
  rw [← hread] at hlast hresolved
  obtain ⟨found, hfound, rfl, original, horiginal, rfl, -⟩ :=
    (hresolved.columns column hcolumn).isTraced source name hsource hname
  rcases List.mem_append.1 (List.mem_filter.1 hfound).1 with htable | hmapped
  · exact Or.inl (HasColumn.of_mem (List.mem_append_left _ htable) horiginal)
  obtain ⟨earlier, hearlier, rfl⟩ := List.mem_map.1 hmapped
  by_cases hothers : ∀ later ∈ last :: after, Text.sameName later.name earlier.table.name = false
  · have hkept := mem_viewsAfter_append hearlier hothers
    exact Or.inl (HasColumn.of_mem (List.mem_append_right _ (List.mem_map_of_mem hkept)) horiginal)
  · obtain ⟨front, first, rest, rfl, hfirst, -⟩ := exists_definition_of_mem_viewsAfter hbase hearlier
    refine Or.inr ⟨exists_sameName_viewsAfter_append hearlier _, _, last, after, rfl, ?_, hlater,
      ⟨first, by simp, ?_⟩, ?_⟩
    · rw [hlast, Text.sameName_refl]
    · rw [hfirst, (resolveView_isResolved _ first).1, Text.sameName_refl]
    · simpa only [not_forall, Bool.not_eq_false, exists_prop] using hothers

/-! ## Schemas -/

section Script

variable {statements : List Statement} {finish : Table → Table}

/-- What is found when all views are read is found in the end. -/
theorem hasColumn_finished (hdeclared : ∀ statement ∈ statements, statement.IsDeclared)
    (hfinish : Finishes (linkedTables statements) finish) {table column : String}
    (hhas : HasColumn (readTablesAndViews statements) table column) :
    HasColumn ((linkedTables statements).map finish) table column := by
  have hbase := baseTables_isBase hdeclared
  have hlinked : HasColumn (linkedTables statements) table column :=
    hasColumn_linkViews (resolveViews_areViews hbase statements) hhas
  apply hlinked.of_outline_eq
  rw [outline, outline, List.map_map]
  apply List.map_congr_left
  intro linked _
  rw [Function.comp_apply, (hfinish linked).1, (hfinish linked).2.2, List.map_map]
  rfl

/-- A column that is taken from another names a table or view and a column of it, unless its
source is a view that is defined again once the column's own view is defined; then there is
still a view of that name, in one spelling or another. -/
def LineageKept (definitions : List ViewDefinition) (tables : List Table) : Prop :=
  ∀ table ∈ tables, ∀ column ∈ table.columns, ∀ source name,
    column.sourceTable = some source → column.sourceColumn = some name →
      HasColumn tables source name ∨
        (∃ view ∈ tables, view.isView = true ∧ Text.sameName view.name source = true) ∧
          IsRedefined definitions table.name source

theorem finished_lineageKept (hdeclared : ∀ statement ∈ statements, statement.IsDeclared)
    (hfinish : Finishes (linkedTables statements) finish) :
    LineageKept (viewDefinitions statements) ((linkedTables statements).map finish) := by
  have hbase := baseTables_isBase hdeclared
  have hviews := resolveViews_areViews hbase statements
  intro table htable column hcolumn source name hsource hname
  obtain ⟨linked, hlinked, rfl⟩ := List.mem_map.1 htable
  rcases List.mem_append.1 hlinked with hown | hlinkedView
  · rw [(hfinish linked).2.2] at hcolumn
    obtain ⟨original, horiginal, rfl⟩ := List.mem_map.1 hcolumn
    have hnone : original.sourceTable = none := (hbase.noLineage linked hown original horiginal).1
    exact absurd (hnone.symm.trans hsource) (by simp)
  obtain ⟨view, hview, rfl⟩ := List.mem_map.1 hlinkedView
  have hfinished {view : ResolvedView} (hview : view ∈ readViews statements) :
      (finish (linkView (readTablesAndViews statements) view)).name = view.table.name :=
    (hfinish _).1.trans (linkView_isView_of_mem hviews hview).2.name_eq
  rcases finished_view_column hfinish hcolumn with
    hnone | ⟨original, horiginal, htable, hcolumn, -⟩
  · exact absurd (hnone.symm.trans hsource) (by simp)
  refine (hasColumn_or_isRedefined hbase hview horiginal (htable.symm.trans hsource)
    (hcolumn.symm.trans hname)).imp (hasColumn_finished hdeclared hfinish) ?_
  rintro ⟨⟨kept, hkept, hsame⟩, hredefined⟩
  refine ⟨⟨_, List.mem_map_of_mem (mem_linkedTables hkept), ?_, ?_⟩, ?_⟩
  · rw [(hfinish _).2.1]
    exact (linkView_isView_of_mem hviews hkept).1.isView
  · rw [hfinished hkept]
    exact hsame
  · exact hfinished hview ▸ hredefined

end Script

/-- The lineage of every schema that is read from a script is kept. -/
theorem readSchema?_lineageKept {config : CategoryConfig} {text : String} {schema : Schema}
    (hread : readSchema? config text = some schema) :
    LineageKept (viewDefinitions (Statement.ofScript text.toList)) schema.tables := by
  obtain ⟨finish, hfinish, hassign⟩ := assign_schemaTables config (Statement.ofScript text.toList)
  rw [readSchema?_tables hread, hassign]
  exact finished_lineageKept ofScript_isDeclared hfinish

/-- A script whose last statements are spelled as view definitions are written. -/
theorem ofScript_of_spellings {text : List Char} (front : List Statement)
    {views : List ViewDefinition}
    (hfront : ((scriptStatements text).take front.length).map Statement.ofLexemes? =
      front.map some)
    (hviews : ((scriptStatements text).drop front.length).map (·.map Lexeme.spelling) =
      views.map viewSpellings)
    (hwritten : ∀ view ∈ views, IsWrittenView view) :
    Statement.ofScript text = front ++ views.map .createView := by
  have hread : ((scriptStatements text).take front.length).filterMap Statement.ofLexemes? =
      front := by
    have hsame := congrArg (List.filterMap id) hfront
    rw [List.filterMap_map, List.filterMap_map] at hsame
    exact hsame.trans List.filterMap_some
  rw [Statement.ofScript, ← List.take_append_drop front.length (scriptStatements text),
    List.filterMap_append, hread]
  exact congrArg _ (filterMap_of_map_spelling hviews fun view hmem piece hpiece =>
    ofLexemes?_of_viewSpellings (hwritten view hmem) hpiece)

/-- A view is defined again once another one has been read against it. -/
def redefinedScript : String :=
  "CREATE TABLE t (a INT);CREATE VIEW v AS SELECT t.a FROM t;" ++
    "CREATE VIEW w AS SELECT v.a FROM v;CREATE VIEW v AS SELECT t.a AS b FROM t;"

theorem readSchema?_redefinedScript_lineageKept :
    ∃ schema, readSchema? .standard redefinedScript = some schema ∧
      LineageKept (viewDefinitions (Statement.ofScript redefinedScript.toList)) schema.tables := by
  have hsome : (readSchema? .standard redefinedScript).isSome = true := by decide +kernel
  obtain ⟨schema, hread⟩ := Option.isSome_iff_exists.1 hsome
  exact ⟨schema, hread, readSchema?_lineageKept hread⟩

/-- The views that are defined in the script. -/
def redefinedViews : List ViewDefinition :=
  [⟨"v", [⟨.column (some "t") "a", none⟩], [⟨"t", none⟩]⟩,
    ⟨"w", [⟨.column (some "v") "a", none⟩], [⟨"v", none⟩]⟩,
    ⟨"v", [⟨.column (some "t") "a", some "b"⟩], [⟨"t", none⟩]⟩]

theorem redefinedViews_areWritten : ∀ view ∈ redefinedViews, IsWrittenView view := by
  have hnames : ∀ name ∈ ["a", "b", "t", "v", "w"], IsBareName name := by decide +kernel
  have hwritten {view source column : String} {aliasName : Option String}
      (hview : IsBareName view) (hsource : IsBareName source) (hcolumn : IsBareName column)
      (halias : ∀ name ∈ aliasName, IsBareName name) :
      IsWrittenView ⟨view, [⟨.column (some source) column, aliasName⟩], [⟨source, none⟩]⟩ :=
    ⟨hview, by simp, List.forall_mem_singleton.2 (.derived hsource hcolumn halias),
      List.forall_mem_singleton.2 ⟨hsource, rfl⟩⟩
  simp only [List.forall_mem_cons] at hnames
  obtain ⟨ha, hb, ht, hv, hw, -⟩ := hnames
  simp only [redefinedViews, List.forall_mem_cons]
  exact ⟨hwritten hv ht ha (by simp), hwritten hw hv ha (by simp),
    hwritten hv ht ha (by simpa using hb), by simp⟩

theorem ofScript_redefinedScript :
    Statement.ofScript redefinedScript.toList =
      .createTable ⟨"t", [{ name := "a", type := "INT" }], []⟩ ::
        redefinedViews.map .createView := by
  have hpieces :
      let pieces := scriptStatements redefinedScript.toList
      (pieces.take 1).map Statement.ofLexemes? =
          [some (.createTable ⟨"t", [{ name := "a", type := "INT" }], []⟩)] ∧
        (pieces.drop 1).map (·.map Lexeme.spelling) = redefinedViews.map viewSpellings := by
    decide +kernel
  exact ofScript_of_spellings [_] hpieces.1 hpieces.2 redefinedViews_areWritten

/-- Every column that is taken from another names a table or view and a column of it, in one
spelling or another. -/
def LineageResolved (tables : List Table) : Prop :=
  ∀ table ∈ tables, ∀ column ∈ table.columns, ∀ source ∈ column.sourceTable,
    ∀ name ∈ column.sourceColumn, ∃ found ∈ tables, Text.sameName found.name source = true ∧
      (found.column? name).isSome = true

instance (tables : List Table) : Decidable (LineageResolved tables) :=
  inferInstanceAs (Decidable (∀ table ∈ tables, _))

/-- A column may outlive the one that it was taken from. -/
theorem readSchema?_redefinedScript_dangling :
    ∃ schema, readSchema? .standard redefinedScript = some schema ∧
      ¬ LineageResolved schema.tables := by
  have hdangling : ((readSchema? .standard redefinedScript).map fun schema =>
      decide (LineageResolved schema.tables)) = some false := by
    rw [readSchema?, ofScript_redefinedScript]
    decide +kernel
  obtain ⟨schema, hread, hdecides⟩ := Option.map_eq_some_iff.1 hdangling
  exact ⟨schema, hread, of_decide_eq_false hdecides⟩

end Crowfoot.Sql
