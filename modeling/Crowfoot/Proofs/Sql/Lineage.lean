import Crowfoot.Proofs.Sql.Views

/-!
# Lineage

Where no two views are defined under one name, every view is read against the
tables and the views in front of it and stays as it was read.  Each of its columns
is taken from a column of a table that its `FROM` clause names, or comes from
nowhere; one that is taken from another has the type of that column.
-/

namespace Crowfoot.Sql

/-- More known tables take nothing from a view. -/
theorem IsResolved.mono {known others : List Table} {view : ResolvedView}
    (hview : IsResolved known view) (hsubset : ∀ table ∈ known, table ∈ others) :
    IsResolved others view where
  drawn := hview.drawn
  nonempty := hview.nonempty
  distinct := hview.distinct
  columns column hmem := (hview.columns column hmem).mono fun table htable => by
    obtain ⟨hknown, hmentioned⟩ := List.mem_filter.1 htable
    exact List.mem_filter.2 ⟨hsubset table hknown, hmentioned⟩
  mentioned name hmem := List.map_subset Table.name hsubset (hview.mentioned name hmem)
  nodup := hview.nodup

/-- Views that are read one after the other, each against the tables and the views
in front of it and under a name of its own. -/
inductive AreResolved (tables : List Table) : List ResolvedView → Prop
  | nil : AreResolved tables []
  | snoc {views : List ResolvedView} {view : ResolvedView} (hviews : AreResolved tables views)
      (hview : IsResolved (tables ++ views.map ResolvedView.table) view)
      (hfree : ∀ other ∈ tables ++ views.map ResolvedView.table,
        Text.sameName other.name view.table.name = false) :
      AreResolved tables (views ++ [view])

/-- A view of a new name goes behind the views that are there. -/
theorem addView_of_free {tables : List Table} {views : List ResolvedView}
    {definition : ViewDefinition}
    (hfree : ∀ other ∈ tables ++ views.map ResolvedView.table,
      Text.sameName other.name definition.name = false) :
    addView tables views definition =
      views ++ [resolveView (tables ++ views.map ResolvedView.table) definition] := by
  obtain ⟨htables, hviews⟩ := List.forall_mem_append.1 hfree
  rw [List.forall_mem_map] at hviews
  have hnone : findTable? tables definition.name = none :=
    List.find?_eq_none.2 fun table hmem => by simp [htables table hmem]
  have hlast : views.find? (fun old => Text.sameName old.table.name definition.name) = none :=
    List.find?_eq_none.2 fun view hmem => by simp [hviews view hmem]
  rw [addView, hnone, putFirst_of_none hlast]
  rfl

theorem foldl_addView_areResolved {tables : List Table} {definitions : List ViewDefinition}
    {views : List ResolvedView} (hviews : AreResolved tables views)
    (hdistinct : DistinctNames (definitions.map ViewDefinition.name))
    (hapart : ∀ view ∈ views, ∀ definition ∈ definitions,
      Text.sameName view.table.name definition.name = false) :
    AreResolved tables (definitions.foldl (addView tables) views) := by
  induction definitions generalizing views with
  | nil => exact hviews
  | cons definition more ih =>
    obtain ⟨hfirst, hmore⟩ := (distinctNames_cons ViewDefinition.name).1 hdistinct
    have hothers : ∀ view ∈ views, ∀ other ∈ more,
        Text.sameName view.table.name other.name = false :=
      fun view hview other hother => hapart view hview other (List.mem_cons_of_mem _ hother)
    rw [List.foldl_cons]
    by_cases hnamed : (findTable? tables definition.name).isSome = true
    · rw [addView, if_pos hnamed]
      exact ih hviews hmore hothers
    · have hfree : ∀ other ∈ tables ++ views.map ResolvedView.table,
          Text.sameName other.name definition.name = false := by
        rw [List.forall_mem_append, List.forall_mem_map]
        refine ⟨?_, fun view hview => hapart view hview definition List.mem_cons_self⟩
        have hnone : findTable? tables definition.name = none := by simpa using hnamed
        exact fun table htable => by simpa using List.find?_eq_none.1 hnone table htable
      obtain ⟨hname, hview⟩ :=
        resolveView_isResolved (tables ++ views.map ResolvedView.table) definition
      rw [addView_of_free hfree]
      apply ih (hviews.snoc hview (by rwa [hname])) hmore
      rw [List.forall_mem_append, List.forall_mem_singleton]
      refine ⟨hothers, fun other hother => ?_⟩
      rw [hname]
      exact hfirst other hother

/-- Views that are defined under different names are read one after the other. -/
theorem resolveViews_areResolved (tables : List Table) {statements : List Statement}
    (hdistinct : DistinctNames ((viewDefinitions statements).map ViewDefinition.name)) :
    AreResolved tables (resolveViews statements tables) :=
  foldl_addView_areResolved .nil hdistinct (by simp)

namespace AreResolved

variable {tables : List Table} {views : List ResolvedView}

/-- Tables and views have names of their own, and so have their columns. -/
theorem wellNamed (hviews : AreResolved tables views) (htables : WellNamed tables) :
    WellNamed (tables ++ views.map ResolvedView.table) := by
  induction hviews with
  | nil => simpa using htables
  | @snoc views view hviews hview hfree ih =>
    have hshift : tables ++ (views ++ [view]).map ResolvedView.table =
        (tables ++ views.map ResolvedView.table) ++ [view.table] := by simp
    rw [hshift]
    refine ⟨?_, ?_, ?_⟩
    · apply distinctNames_concat Table.name ih.distinctTables
      exact List.find?_eq_none.2 fun other hother => by simp [hfree other hother]
    · exact List.forall_mem_append.2 ⟨ih.nonempty, List.forall_mem_singleton.2 hview.nonempty⟩
    · exact List.forall_mem_append.2
        ⟨ih.distinctColumns, List.forall_mem_singleton.2 hview.distinct⟩

/-- Every view is as it was read against tables and views that are still there. -/
theorem isResolved (hviews : AreResolved tables views) :
    ∀ view ∈ views, IsResolved (tables ++ views.map ResolvedView.table) view := by
  induction hviews with
  | nil => simp
  | @snoc views view hviews hview hfree ih =>
    have hsubset : ∀ table ∈ tables ++ views.map ResolvedView.table,
        table ∈ tables ++ (views ++ [view]).map ResolvedView.table := by
      intro table hmem
      rw [List.map_append, ← List.append_assoc]
      exact List.mem_append_left _ hmem
    rw [List.forall_mem_append, List.forall_mem_singleton]
    exact ⟨fun old hold => (ih old hold).mono hsubset, hview.mono hsubset⟩

end AreResolved

/-- A column that is taken from another has the type of that column. -/
def IsTraced (tables : List Table) (column : Column) : Prop :=
  ∀ table source, column.sourceTable = some table → column.sourceColumn = some source →
    ∃ found ∈ tables, found.name = table ∧ ∃ original ∈ found.columns, original.name = source ∧
      original.type = column.type

theorem IsSelected.isTraced {known : List Table} {column : Column}
    (hselected : IsSelected known column) : IsTraced known column := by
  rintro table source htable hsource
  cases hselected with
  | @derived found original hfound horiginal aliasName =>
    cases htable
    cases hsource
    exact ⟨found, hfound, rfl, original, horiginal, rfl, rfl⟩
  | plain name type => cases htable

end Crowfoot.Sql
