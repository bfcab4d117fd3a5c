import Crowfoot.Proofs.Sql.Views

/-!
# Links of views

Once all views are read, every view is linked to the tables it mentions and to
those its column names mean.  Linking points columns at tables that are known
and adds columns at the end; names that were there before stay where they are.
-/

namespace Crowfoot.Sql

/-- The column that links a view to a table. -/
def linkColumn (table : Table) (target : Column) : Column :=
  ({ name := Column.linkMark ++ table.name, type := "INTEGER" } : Column).referTo
    table.name target.name

@[simp] theorem linkColumn_name (table : Table) (target : Column) :
    (linkColumn table target).name = Column.linkMark ++ table.name := rfl

/-- A mentioned table leaves a view as it is, or adds a linking column whose name
is free, when no column refers to that table. -/
theorem linkMentioned_cases (known : List Table) (view : Table) (mentioned : String) :
    linkMentioned known view mentioned = view ∨
      ∃ table target, findTable? known mentioned = some table ∧
        linkTarget? table = some target ∧
        (∀ column ∈ view.columns, ∀ reference ∈ column.references,
          Text.sameName reference.table mentioned = false) ∧
        view.column? (linkColumn table target).name = none ∧
        linkMentioned known view mentioned =
          { view with columns := view.columns ++ [linkColumn table target] } := by
  simp only [linkMentioned]
  split
  · exact Or.inl rfl
  · rename_i hunlinked
    split
    · exact Or.inl rfl
    · rename_i table htable
      split
      · exact Or.inl rfl
      · rename_i target htarget
        split
        · exact Or.inl rfl
        · rename_i hfree
          refine Or.inr ⟨table, target, htable, htarget, ?_, by simpa using hfree, rfl⟩
          intro column hcolumn reference hreference
          rw [Bool.eq_false_iff]
          intro hsame
          apply hunlinked
          rw [List.any_eq_true]
          exact ⟨column, hcolumn, (Option.any_eq_true _ _).2 ⟨reference, hreference, hsame⟩⟩

theorem linkTarget?_mem {table : Table} {target : Column}
    (htarget : linkTarget? table = some target) : target ∈ table.columns := by
  rcases Option.or_eq_some_iff.1 htarget with hkey | ⟨_, hhead⟩
  · exact Table.primaryKey?_mem hkey
  · exact List.mem_of_mem_head? hhead

/-- A column's name leaves it as it is, or points it at a key of a base table. -/
theorem linkNamed_cases (known : List Table) (column : Column) :
    linkNamed known column = column ∨
      ∃ table ∈ known, table.isView = false ∧ ∃ key, table.primaryKey? = some key ∧
        column.references = none ∧ linkNamed known column = column.referTo table.name key.name := by
  rw [linkNamed]
  split
  · exact Or.inl rfl
  · rename_i hfree
    simp only [Option.bind_eq_bind, Option.pure_def]
    split
    · rename_i table key hfound
      simp only [Option.bind_eq_some_iff, Option.some.injEq, Prod.mk.injEq] at hfound
      obtain ⟨word, _, found, htable, primary, hkey, rfl, rfl⟩ := hfound
      have hview := List.find?_some htable
      simp only [Bool.and_eq_true, Bool.not_eq_true'] at hview
      exact Or.inr ⟨found, List.mem_of_find?_eq_some htable, hview.1, primary, hkey,
        by simpa using hfree, rfl⟩
    · exact Or.inl rfl

@[simp] theorem linkNamed_name (known : List Table) (column : Column) :
    (linkNamed known column).name = column.name := by
  rcases linkNamed_cases known column with heq | ⟨_, _, _, _, _, _, heq⟩ <;> rw [heq]
  rfl

@[simp] theorem linkNamed_sourceTable (known : List Table) (column : Column) :
    (linkNamed known column).sourceTable = column.sourceTable := by
  rcases linkNamed_cases known column with heq | ⟨_, _, _, _, _, _, heq⟩ <;> rw [heq]
  rfl

@[simp] theorem linkNamed_sourceColumn (known : List Table) (column : Column) :
    (linkNamed known column).sourceColumn = column.sourceColumn := by
  rcases linkNamed_cases known column with heq | ⟨_, _, _, _, _, _, heq⟩ <;> rw [heq]
  rfl

@[simp] theorem linkNamed_type (known : List Table) (column : Column) :
    (linkNamed known column).type = column.type := by
  rcases linkNamed_cases known column with heq | ⟨_, _, _, _, _, _, heq⟩ <;> rw [heq]
  rfl

theorem linkNamed_isViewColumn {known : List Table} {column : Column}
    (hcolumn : IsViewColumn known column) : IsViewColumn known (linkNamed known column) := by
  rcases linkNamed_cases known column with heq | ⟨table, htable, _, key, hkey, _, heq⟩
  · rw [heq]
    exact hcolumn
  · rw [heq]
    refine ⟨⟨rfl, hcolumn.sound.keyNotNull, ?_⟩, hcolumn.notPrimary, hcolumn.notUnique⟩
    rintro _ ⟨⟩
    exact HasColumn.of_mem htable (Table.primaryKey?_mem hkey)

/-! ## Linked views -/

theorem mem_foldl_linkMentioned {known : List Table} {view : Table} {mentioned : List String}
    {column : Column} (hmem : column ∈ (mentioned.foldl (linkMentioned known) view).columns) :
    column ∈ view.columns ∨ column.sourceTable = none := by
  refine List.foldlRecOn
    (motive := fun linked : Table =>
      ∀ column ∈ linked.columns, column ∈ view.columns ∨ column.sourceTable = none)
    mentioned (linkMentioned known) (fun column => Or.inl) ?_ column hmem
  intro linked hlinked name _ column hmem
  rcases linkMentioned_cases known linked name with heq | ⟨table, target, _, _, _, _, heq⟩
  · exact hlinked column (heq ▸ hmem)
  · rw [heq] at hmem
    rcases List.mem_append.1 hmem with hold | hnew
    · exact hlinked column hold
    · obtain rfl := List.mem_singleton.1 hnew
      exact Or.inr rfl

/-- A column of a linked view comes from nowhere, or it is what has become of a column of the
view. -/
theorem mem_linkView_columns {known : List Table} {view : ResolvedView} {column : Column}
    (hmem : column ∈ (linkView known view).columns) :
    column.sourceTable = none ∨ ∃ original ∈ view.table.columns,
      column.sourceTable = original.sourceTable ∧ column.sourceColumn = original.sourceColumn ∧
        column.type = original.type := by
  obtain ⟨original, horiginal, rfl⟩ := List.mem_map.1 hmem
  rcases mem_foldl_linkMentioned horiginal with hown | hlink
  · exact Or.inr ⟨original, hown, linkNamed_sourceTable known original,
      linkNamed_sourceColumn known original, linkNamed_type known original⟩
  · exact Or.inl ((linkNamed_sourceTable known original).trans hlink)

/-- What linking keeps of a view: its name, and its columns in front of others. -/
structure Extends (view linked : Table) : Prop where
  name_eq : linked.name = view.name
  names_prefix : view.columns.map Column.name <+: linked.columns.map Column.name

theorem linkMentioned_isView {known : List Table} {view : Table} (hview : IsView known view)
    (mentioned : String) :
    IsView known (linkMentioned known view mentioned) ∧
      Extends view (linkMentioned known view mentioned) := by
  rcases linkMentioned_cases known view mentioned with
    heq | ⟨table, target, htable, htarget, _, hfree, heq⟩
  · rw [heq]
    exact ⟨hview, rfl, List.prefix_rfl⟩
  · rw [heq]
    refine ⟨⟨hview.isView, by simp, ?_, ?_⟩, rfl, by simp⟩
    · exact distinctNames_concat Column.name hview.distinct hfree
    · intro column hcolumn
      rcases List.mem_append.1 hcolumn with hold | hnew
      · exact hview.columns column hold
      · obtain rfl := List.mem_singleton.1 hnew
        refine ⟨⟨rfl, by simp [linkColumn, Column.referTo], ?_⟩, rfl, rfl⟩
        rintro _ ⟨⟩
        exact HasColumn.of_mem (findTable?_mem htable) (linkTarget?_mem htarget)

theorem foldl_linkMentioned_isView {known : List Table} {view : Table}
    (hview : IsView known view) (mentioned : List String) :
    IsView known (mentioned.foldl (linkMentioned known) view) ∧
      Extends view (mentioned.foldl (linkMentioned known) view) := by
  refine List.foldlRecOn
    (motive := fun linked => IsView known linked ∧ Extends view linked)
    mentioned (linkMentioned known) ⟨hview, rfl, List.prefix_rfl⟩ ?_
  rintro linked ⟨hlinked, hname, hprefix⟩ name _
  obtain ⟨hnext, hname', hprefix'⟩ := linkMentioned_isView hlinked name
  exact ⟨hnext, hname'.trans hname, hprefix.trans hprefix'⟩

theorem linkView_isView {known : List Table} {view : ResolvedView}
    (hview : IsView known view.table) :
    IsView known (linkView known view) ∧ Extends view.table (linkView known view) := by
  obtain ⟨hlinked, hname, hprefix⟩ := foldl_linkMentioned_isView hview view.mentioned
  have hnames (table : Table) : (table.columns.map (linkNamed known)).map Column.name =
      table.columns.map Column.name := by
    simp [Function.comp_def]
  refine ⟨⟨hlinked.isView, ?_, ?_, ?_⟩, hname, ?_⟩
  · simpa [linkView] using hlinked.nonempty
  · simpa only [linkView, hnames] using hlinked.distinct
  · intro column hcolumn
    obtain ⟨original, horiginal, rfl⟩ := List.mem_map.1 hcolumn
    exact linkNamed_isViewColumn (hlinked.columns original horiginal)
  · simpa only [linkView, hnames] using hprefix

theorem Extends.exists_column {view linked : Table} (hextends : Extends view linked)
    {column : Column} (hmem : column ∈ view.columns) :
    ∃ kept ∈ linked.columns, kept.name = column.name :=
  List.mem_map.1 (hextends.names_prefix.subset (List.mem_map_of_mem hmem))

theorem IsView.of_hasColumn {before after : List Table} {view : Table}
    (hkeep : ∀ table name, HasColumn before table name → HasColumn after table name)
    (hview : IsView before view) : IsView after view :=
  ⟨hview.isView, hview.nonempty, hview.distinct, fun column hmem =>
    ⟨(hview.columns column hmem).sound.of_hasColumn hkeep, (hview.columns column hmem).notPrimary,
      (hview.columns column hmem).notUnique⟩⟩

theorem HasColumn.append_left {tables : List Table} {table column : String}
    (hhas : HasColumn tables table column) (views : List Table) :
    HasColumn (tables ++ views) table column := by
  obtain ⟨found, hfound, hcolumn⟩ := hhas
  exact ⟨found, List.mem_append_left views hfound, hcolumn⟩

section LinkViews

variable {tables : List Table} {views : List ResolvedView}
  (hviews : AreViews tables tables (views.map ResolvedView.table))

include hviews

/-- A view that is linked keeps its name and its columns. -/
theorem linkView_isView_of_mem {view : ResolvedView} (hmem : view ∈ views) :
    IsView (tables ++ views.map ResolvedView.table)
        (linkView (tables ++ views.map ResolvedView.table) view) ∧
      Extends view.table (linkView (tables ++ views.map ResolvedView.table) view) :=
  linkView_isView ((hviews.each view.table (List.mem_map_of_mem hmem)).of_hasColumn
    fun _ _ hhas => HasColumn.append_left hhas (views.map ResolvedView.table))

/-- What is found before linking is found afterwards: a linked view keeps its name and its
columns. -/
theorem hasColumn_linkViews {table column : String}
    (hhas : HasColumn (tables ++ views.map ResolvedView.table) table column) :
    HasColumn (tables ++ linkViews tables views) table column := by
  obtain ⟨found, hfound, rfl, key, hkey, rfl⟩ := hhas
  rcases List.mem_append.1 hfound with hbase | hview
  · exact HasColumn.of_mem (List.mem_append_left _ hbase) hkey
  · obtain ⟨view, hmem, rfl⟩ := List.mem_map.1 hview
    obtain ⟨_, hextends⟩ := linkView_isView_of_mem hviews hmem
    obtain ⟨kept, hkept, hname⟩ := hextends.exists_column hkey
    exact ⟨_, List.mem_append_right _ (List.mem_map_of_mem hmem), hextends.name_eq, kept,
      hkept, hname⟩

/-- The tables and views of a script before cardinalities are attached. -/
theorem linkViews_areViews :
    AreViews tables (tables ++ linkViews tables views) (linkViews tables views) := by
  have hnames : (linkViews tables views).map Table.name =
      (views.map ResolvedView.table).map Table.name := by
    simp only [linkViews, List.map_map]
    apply List.map_congr_left
    intro view hmem
    exact (linkView_isView_of_mem hviews hmem).2.name_eq
  refine ⟨?_, hnames ▸ hviews.distinct, ?_⟩
  · intro view hview
    obtain ⟨resolved, hmem, rfl⟩ := List.mem_map.1 hview
    exact (linkView_isView_of_mem hviews hmem).1.of_hasColumn
      fun _ _ hhas => hasColumn_linkViews hviews hhas
  · intro table htable view hview
    have hname : view.name ∈ (views.map ResolvedView.table).map Table.name :=
      hnames ▸ List.mem_map_of_mem hview
    obtain ⟨resolved, hresolved, hsame⟩ := List.mem_map.1 hname
    exact hsame ▸ hviews.apart table htable resolved hresolved

end LinkViews

end Crowfoot.Sql
