import Crowfoot.Proofs.Sql.BaseTables
import Crowfoot.Sql.Views

/-!
# Views

A view takes columns from tables that are known when it is read, and with them
the references of these columns; links are added once all views are there.  The
columns of a view are no keys, and every reference they inherit or get leads to
a column of a table or view.  Redefining a view in between changes what a link
finds but not that it finds something.
-/

namespace Crowfoot.Sql

/-! ## Names in scope -/

section Scope

variable {known : List Table} {sources : List TableMention}

theorem ofSources_tables_mem {table : Table}
    (hmem : table ∈ (Scope.ofSources known sources).tables) : table ∈ known := by
  obtain ⟨source, _, hfound⟩ := List.mem_filterMap.1 hmem
  exact findTable?_mem hfound

/-- What a name or an alias stands for is a table of the `FROM` clause. -/
theorem ofSources_aliases_mem :
    ∀ entry ∈ (Scope.ofSources known sources).aliases,
      entry.2 ∈ (Scope.ofSources known sources).tables := by
  refine List.foldlRecOn
    (motive := fun aliases : List (String × Table) =>
      ∀ entry ∈ aliases, entry.2 ∈ (Scope.ofSources known sources).tables)
    sources _ (by simp) ?_
  intro aliases haliases source hsource
  split
  · exact haliases
  · rename_i table hfound
    have htable : table ∈ (Scope.ofSources known sources).tables :=
      List.mem_filterMap.2 ⟨source, hsource, hfound⟩
    intro entry hmem
    rcases List.mem_append.1 hmem with hnamed | hrest
    · obtain ⟨_, _, rfl⟩ := List.mem_map.1 hnamed
      exact htable
    · rcases List.mem_cons.1 hrest with rfl | hold
      · exact htable
      · exact haliases entry hold

theorem ofSources_table?_mem {qualifier : String} {table : Table}
    (hfound : (Scope.ofSources known sources).table? qualifier = some table) :
    table ∈ (Scope.ofSources known sources).tables := by
  obtain ⟨before, after, heq, _⟩ := List.lookup_eq_some_iff.1 hfound
  apply ofSources_aliases_mem (Text.lowerCase qualifier, table)
  rw [heq]
  exact List.mem_append_right before List.mem_cons_self

end Scope

/-! ## Selected columns -/

/-- A column that a view selects: taken from a column of one of the tables, or
with nothing but a name and a type. -/
inductive IsSelected (tables : List Table) : Column → Prop
  | derived {source : Table} {column : Column} (hsource : source ∈ tables)
      (hcolumn : column ∈ source.columns) (aliasName : Option String) :
      IsSelected tables (deriveColumn source column aliasName)
  | plain (name type : String) : IsSelected tables { name, type }

section Selected

variable {tables : List Table}

theorem IsSelected.mono {others : List Table} {column : Column}
    (hselected : IsSelected tables column) (hsubset : ∀ table ∈ tables, table ∈ others) :
    IsSelected others column := by
  cases hselected with
  | derived hsource hcolumn aliasName => exact .derived (hsubset _ hsource) hcolumn aliasName
  | plain name type => exact .plain name type

theorem deriveNamed?_isSelected {source : Table} (hsource : source ∈ tables) {name : String}
    {aliasName : Option String} {column : Column}
    (hderive : deriveNamed? name aliasName source = some column) : IsSelected tables column := by
  obtain ⟨original, hfound, rfl⟩ := Option.map_eq_some_iff.1 hderive
  exact .derived hsource (Table.column?_mem hfound) aliasName

theorem deriveAll_isSelected {found : Option Table} (hfound : ∀ table ∈ found, table ∈ tables) :
    ∀ column ∈ (found.map deriveAll).getD [], IsSelected tables column := by
  cases found with
  | none => simp
  | some table =>
    intro column hmem
    obtain ⟨original, horiginal, rfl⟩ := List.mem_map.1 hmem
    exact .derived (hfound table rfl) horiginal none

theorem getD_isSelected {found : Option Column} {default : Column}
    (hfound : ∀ column, found = some column → IsSelected tables column)
    (hdefault : IsSelected tables default) : IsSelected tables (found.getD default) := by
  cases found with
  | none => exact hdefault
  | some column => exact hfound column rfl

end Selected

variable {targets known : List Table}

theorem resolveItem_isSelected (sources : List TableMention) (item : SelectItem) (position : Nat) :
    ∀ column ∈ resolveItem (Scope.ofSources known sources) item position,
      IsSelected (Scope.ofSources known sources).tables column := by
  rw [resolveItem]
  simp only
  split
  · exact deriveAll_isSelected fun table hfound => List.mem_of_mem_head? hfound
  · exact deriveAll_isSelected fun table hfound => ofSources_table?_mem hfound
  · refine List.forall_mem_singleton.2 (getD_isSelected ?_ (.plain _ _))
    intro column hderive
    obtain ⟨table, hfound, hderive⟩ := Option.bind_eq_some_iff.1 hderive
    exact deriveNamed?_isSelected (ofSources_table?_mem hfound) hderive
  · refine List.forall_mem_singleton.2 (getD_isSelected ?_ (.plain _ _))
    intro column hderive
    obtain ⟨table, hmem, hderive⟩ := List.exists_of_findSome?_eq_some hderive
    exact deriveNamed?_isSelected hmem hderive
  · exact List.forall_mem_singleton.2 (.plain _ _)

/-! ## Views as they are read -/

/-- Selecting columns into a table changes nothing but its columns, and keeps
their names different. -/
theorem foldl_upsertColumn {P : Column → Prop} {columns : List Column} (view : Table)
    (hcolumns : ∀ column ∈ columns, P column)
    (hdistinct : DistinctNames (view.columns.map Column.name))
    (hview : ∀ column ∈ view.columns, P column) :
    ∃ selected, columns.foldl Table.upsertColumn view = { view with columns := selected } ∧
      DistinctNames (selected.map Column.name) ∧ ∀ column ∈ selected, P column := by
  induction columns generalizing view with
  | nil => exact ⟨view.columns, rfl, hdistinct, hview⟩
  | cons column rest ih =>
    obtain ⟨hcolumn, hrest⟩ := List.forall_mem_cons.1 hcolumns
    refine ih (view.upsertColumn column) hrest
      (distinctNames_putFirst Column.name column hdistinct) ?_
    intro other hother
    rcases mem_putFirst hother with rfl | hold
    · exact hcolumn
    · exact hview other hold

theorem placeholderColumns_isSelected (tables : List Table) :
    ∀ column ∈ placeholderColumns, IsSelected tables column := by
  intro column hmem
  simp only [placeholderColumns, List.mem_cons, List.not_mem_nil, or_false] at hmem
  rcases hmem with rfl | rfl | rfl <;> exact .plain _ _

theorem placeholderColumns_distinct :
    DistinctNames (placeholderColumns.map Column.name) := by
  rw [DistinctNames]
  decide

/-- A view as it is read: nothing but its name, that it is a view, and columns
selected from the known tables that it mentions. -/
structure IsResolved (known : List Table) (view : ResolvedView) : Prop where
  drawn : view.table =
    { name := view.table.name, columns := view.table.columns, isView := true }
  nonempty : view.table.columns ≠ []
  distinct : DistinctNames (view.table.columns.map Column.name)
  columns : ∀ column ∈ view.table.columns,
    IsSelected (known.filter fun table => table.name ∈ view.mentioned) column
  mentioned : ∀ name ∈ view.mentioned, name ∈ known.map Table.name
  nodup : view.mentioned.Nodup

theorem nodup_eraseDups (names : List String) : names.eraseDups.Nodup := by
  match names with
  | [] => exact List.nodup_nil
  | first :: rest =>
    rw [List.eraseDups_cons, List.nodup_cons]
    refine ⟨?_, nodup_eraseDups (rest.filter fun name => !name == first)⟩
    simp [List.mem_eraseDups]
termination_by names.length
decreasing_by
  exact Nat.lt_succ_of_le (List.length_filter_le _ _)

theorem resolveView_isResolved (known : List Table) (definition : ViewDefinition) :
    (resolveView known definition).table.name = definition.name ∧
      IsResolved known (resolveView known definition) := by
  have hscope (table : Table) (hmem : table ∈ (Scope.ofSources known definition.sources).tables) :
      table ∈ known.filter fun table =>
        table.name ∈ (resolveView known definition).mentioned := by
    rw [List.mem_filter, decide_eq_true_eq]
    exact ⟨ofSources_tables_mem hmem, List.mem_eraseDups.2 (List.mem_map_of_mem hmem)⟩
  have hselected : ∀ column ∈ definition.items.zipIdx.flatMap (fun entry =>
      resolveItem (Scope.ofSources known definition.sources) entry.1 (entry.2 + 1)),
      IsSelected (known.filter fun table =>
        table.name ∈ (resolveView known definition).mentioned) column := by
    intro column hmem
    obtain ⟨entry, _, hcolumn⟩ := List.mem_flatMap.1 hmem
    exact (resolveItem_isSelected definition.sources entry.1 (entry.2 + 1) column hcolumn).mono hscope
  have hmentioned : ∀ name ∈ (resolveView known definition).mentioned,
      name ∈ known.map Table.name := by
    intro name hmem
    obtain ⟨table, htable, rfl⟩ := List.mem_map.1 (List.mem_eraseDups.1 hmem)
    exact List.mem_map_of_mem (ofSources_tables_mem htable)
  have hnodup : (resolveView known definition).mentioned.Nodup := nodup_eraseDups _
  obtain ⟨columns, hview, hdistinct, hcolumns⟩ := foldl_upsertColumn
    { name := definition.name, isView := true } hselected List.Pairwise.nil (by simp)
  have htable : (resolveView known definition).table =
      { name := definition.name, isView := true,
        columns := if columns.isEmpty then placeholderColumns else columns } := by
    simp only [resolveView]
    rw [hview]
    split <;> rfl
  refine ⟨by rw [htable], by rw [htable], ?_, ?_, ?_, hmentioned, hnodup⟩
  all_goals rw [htable]; dsimp only; split
  · simp [placeholderColumns]
  · rename_i hsome
    simpa using hsome
  · exact placeholderColumns_distinct
  · exact hdistinct
  · exact placeholderColumns_isSelected _
  · exact hcolumns

/-! ## Sound columns -/

/-- A column of a view: sound, and no key. -/
structure IsViewColumn (targets : List Table) (column : Column) : Prop where
  sound : column.IsSound targets
  notPrimary : column.isPrimaryKey = false
  notUnique : column.isUnique = false

/-- What is selected from sound columns is sound. -/
theorem IsSelected.isViewColumn {column : Column} (hselected : IsSelected known column)
    (hknown : ∀ table ∈ known, ∀ column ∈ table.columns, column.IsSound targets) :
    IsViewColumn targets column := by
  cases hselected with
  | @derived source original hsource hcolumn aliasName =>
    refine ⟨⟨?_, by simp [deriveColumn], ?_⟩, rfl, rfl⟩
    · simp [Column.IsConsistent, deriveColumn]
    · intro reference hmem
      obtain ⟨inherited, hinherited, rfl⟩ := Option.map_eq_some_iff.1 hmem
      exact (hknown source hsource original hcolumn).resolved inherited hinherited
  | plain name type => exact ⟨⟨rfl, by simp, by simp⟩, rfl, rfl⟩

/-- A view with columns of different names, whose references lead to the targets. -/
structure IsView (targets : List Table) (view : Table) : Prop where
  isView : view.isView = true
  nonempty : view.columns ≠ []
  distinct : DistinctNames (view.columns.map Column.name)
  columns : ∀ column ∈ view.columns, IsViewColumn targets column

/-- A view that is read against sound tables has its name and is a view. -/
theorem resolveView_isView
    (hknown : ∀ table ∈ known, ∀ column ∈ table.columns, column.IsSound targets)
    (definition : ViewDefinition) :
    (resolveView known definition).table.name = definition.name ∧
      IsView targets (resolveView known definition).table := by
  obtain ⟨hname, hresolved⟩ := resolveView_isResolved known definition
  refine ⟨hname, by rw [hresolved.drawn], hresolved.nonempty, hresolved.distinct, ?_⟩
  intro column hmem
  exact (hresolved.columns column hmem).isViewColumn fun table htable =>
    hknown table (List.mem_filter.1 htable).1

/-- Views of different names, none of them that of a table. -/
structure AreViews (tables targets views : List Table) : Prop where
  each : ∀ view ∈ views, IsView targets view
  distinct : DistinctNames (views.map Table.name)
  apart : ∀ table ∈ tables, ∀ view ∈ views, Text.sameName table.name view.name = false

theorem addView_areViews {tables : List Table} (hbase : IsBase tables)
    {views : List ResolvedView}
    (hviews : AreViews tables tables (views.map ResolvedView.table))
    (definition : ViewDefinition) :
    AreViews tables tables ((addView tables views definition).map ResolvedView.table) := by
  rw [addView]
  split
  · exact hviews
  · rename_i hfree
    have hknown : ∀ table ∈ tables ++ views.map ResolvedView.table,
        ∀ column ∈ table.columns, column.IsSound tables := by
      intro table hmem column hcolumn
      rcases List.mem_append.1 hmem with htable | hview
      · exact hbase.sound table htable column hcolumn
      · exact ((hviews.each table hview).columns column hcolumn).sound
    obtain ⟨hname, hresolved⟩ := resolveView_isView hknown definition
    rw [← hname]
    generalize resolveView _ definition = resolved at hname hresolved ⊢
    have hmem {view : Table} (hview : view ∈ (putFirst (fun old : ResolvedView =>
          Text.sameName old.table.name resolved.table.name) resolved views).map
            ResolvedView.table) :
        view = resolved.table ∨ view ∈ views.map ResolvedView.table := by
      obtain ⟨found, hfound, rfl⟩ := List.mem_map.1 hview
      rcases mem_putFirst hfound with rfl | hold
      · exact Or.inl rfl
      · exact Or.inr (List.mem_map_of_mem hold)
    refine ⟨?_, ?_, ?_⟩
    · intro view hview
      rcases hmem hview with rfl | hold
      · exact hresolved
      · exact hviews.each view hold
    · have hdistinct := hviews.distinct
      rw [List.map_map] at hdistinct ⊢
      exact distinctNames_putFirst (Table.name ∘ ResolvedView.table) resolved hdistinct
    · intro table htable view hview
      rcases hmem hview with rfl | hold
      · have hnone : findTable? tables definition.name = none := by simpa using hfree
        rw [hname]
        simpa using List.find?_eq_none.1 hnone table htable
      · exact hviews.apart table htable view hold

theorem foldl_addView_areViews {tables : List Table} (hbase : IsBase tables)
    (definitions : List ViewDefinition) :
    AreViews tables tables
      ((definitions.foldl (addView tables) []).map ResolvedView.table) := by
  refine List.foldlRecOn
    (motive := fun views => AreViews tables tables (views.map ResolvedView.table))
    definitions (addView tables) ?_ ?_
  · exact ⟨by simp, List.Pairwise.nil, by simp⟩
  · intro views hviews definition _
    exact addView_areViews hbase hviews definition

theorem resolveViews_areViews {tables : List Table} (hbase : IsBase tables)
    (statements : List Statement) :
    AreViews tables tables ((resolveViews statements tables).map ResolvedView.table) :=
  foldl_addView_areViews hbase (viewDefinitions statements)

end Crowfoot.Sql
