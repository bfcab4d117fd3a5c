import Crowfoot.Proofs.Sql.Lineage
import Crowfoot.Proofs.Sql.Links
import Crowfoot.Proofs.Sql.WrittenViews
import Mathlib.Data.List.Induction

/-!
# Written links

A view gets a linking column for every mentioned table that no column refers to,
if the name of that column is free.  Written down, the linking columns are left
out, but the tables they lead to are named in the `FROM` clause, behind those that
columns are taken from.  So the definition that is written says of the view as it
was read, before any links, where its columns come from and which links it wants.
-/

namespace Crowfoot.Sql

/-! ## Links as a list -/

/-- No column of the view refers to the table, and none has the name of the column
that would link the view to it. -/
def isUnlinked (view : Table) (name : String) : Bool :=
  !(view.columns.any fun column =>
      column.references.any fun reference => Text.sameName reference.table name) &&
    (view.column? (Column.linkMark ++ name)).isNone

/-- The mentioned tables that a view is linked to by columns of their own. -/
def wantedLinks (view : ResolvedView) : List String :=
  view.mentioned.filter (isUnlinked view.table)

/-- The columns that link a view to tables of these names. -/
def linkColumns (known : List Table) (names : List String) : List Column :=
  names.filterMap fun name =>
    (findTable? known name).bind fun table => (linkTarget? table).map (linkColumn table)

theorem exists_linkTarget? {table : Table} (hsome : table.columns ≠ []) :
    ∃ target, linkTarget? table = some target := by
  obtain ⟨first, rest, hcolumns⟩ := List.exists_cons_of_ne_nil hsome
  rw [linkTarget?, hcolumns, List.head?_cons]
  cases table.primaryKey? with
  | none => exact ⟨first, rfl⟩
  | some key => exact ⟨key, rfl⟩

theorem sameName_linkMark (left right : String) :
    Text.sameName (Column.linkMark ++ left) (Column.linkMark ++ right) =
      Text.sameName left right := by
  rw [Bool.eq_iff_iff, Text.sameName_iff, Text.sameName_iff, String.toList_append,
    String.toList_append]
  simp [Text.foldCase]

/-- A table that is known is linked if it has to be. -/
theorem linkMentioned_eq {known : List Table} {name : String} {table : Table} {target : Column}
    (hfound : findTable? known name = some table) (htarget : linkTarget? table = some target)
    (view : Table) :
    linkMentioned known view name =
      if isUnlinked view name then
        { view with columns := view.columns ++ [linkColumn table target] }
      else
        view := by
  have hname := List.find?_some hfound
  have hmark : Text.sameName (Column.linkMark ++ table.name) (Column.linkMark ++ name) = true :=
    (sameName_linkMark table.name name).trans hname
  simp only [linkMentioned, hfound, htarget, column?_congr hmark]
  by_cases hlinked : (view.columns.any fun column =>
      column.references.any fun reference => Text.sameName reference.table name) = true
  · have hnot : ¬ isUnlinked view name = true := by simp [isUnlinked, hlinked]
    rw [if_pos hlinked, if_neg hnot]
  · rw [if_neg hlinked]
    rw [Bool.not_eq_true] at hlinked
    by_cases hfree : (view.column? (Column.linkMark ++ name)).isSome = true
    · have hnot : ¬ isUnlinked view name = true := by
        simpa [isUnlinked, hlinked, Option.isSome_iff_ne_none] using hfree
      rw [if_pos hfree, if_neg hnot]
    · have hwanted : isUnlinked view name = true := by
        simpa [isUnlinked, hlinked] using hfree
      rw [if_neg hfree, if_pos hwanted]
      rfl

/-- A link to one table leaves it open whether the view is linked to another. -/
theorem isUnlinked_append {view table : Table} {target : Column} {name : String}
    (hdiffer : Text.sameName table.name name = false) :
    isUnlinked { view with columns := view.columns ++ [linkColumn table target] } name =
      isUnlinked view name := by
  have hcolumn : Text.sameName (Column.linkMark ++ table.name) (Column.linkMark ++ name) = false := by
    rw [sameName_linkMark, hdiffer]
  have hreference : ((linkColumn table target).references.any fun reference =>
      Text.sameName reference.table name) = false := hdiffer
  simp [isUnlinked, Table.column?, List.find?_append, hcolumn, hreference]

section Links

variable {known : List Table}

theorem sameName_of_mem_names (hnamed : WellNamed known) {left right : String}
    (hleft : left ∈ known.map Table.name) (hright : right ∈ known.map Table.name)
    (hsame : Text.sameName left right = true) : left = right := by
  obtain ⟨first, hfirst, rfl⟩ := List.mem_map.1 hleft
  obtain ⟨second, hsecond, rfl⟩ := List.mem_map.1 hright
  rw [eq_of_distinctNames Table.name hnamed.distinctTables hfirst hsecond hsame]

/-- The tables that a view mentions have different names, and each is known with a
column to point at. -/
structure IsLinkable (known : List Table) (view : ResolvedView) : Prop where
  distinct : DistinctNames view.mentioned
  found : ∀ name ∈ view.mentioned, ∃ table,
    findTable? known name = some table ∧ table.columns ≠ []

theorem IsResolved.isLinkable (hnamed : WellNamed known) {view : ResolvedView}
    (hview : IsResolved known view) : IsLinkable known view := by
  refine ⟨hview.nodup.imp_of_mem fun hleft hright hdiffer => ?_, fun name hname => ?_⟩
  · rw [Bool.eq_false_iff]
    exact fun hsame => hdiffer (sameName_of_mem_names hnamed (hview.mentioned _ hleft)
      (hview.mentioned _ hright) hsame)
  · obtain ⟨table, htable, rfl⟩ := List.mem_map.1 (hview.mentioned name hname)
    exact ⟨table, hnamed.findTable?_eq htable, hnamed.nonempty table htable⟩

/-- The links of a view are put behind its columns in the order of the mentioned
tables. -/
theorem foldl_linkMentioned {names : List String} (hdistinct : DistinctNames names)
    (hfound : ∀ name ∈ names, ∃ table, findTable? known name = some table ∧ table.columns ≠ [])
    (view : Table) :
    names.foldl (linkMentioned known) view =
      { view with
        columns := view.columns ++ linkColumns known (names.filter (isUnlinked view)) } := by
  induction names generalizing view with
  | nil => simp [linkColumns]
  | cons name rest ih =>
    obtain ⟨⟨table, htable, hsome⟩, hrest⟩ := List.forall_mem_cons.1 hfound
    obtain ⟨hnew, hothers⟩ := List.pairwise_cons.1 hdistinct
    obtain ⟨target, htarget⟩ := exists_linkTarget? hsome
    rw [List.foldl_cons, linkMentioned_eq htable htarget, ih hothers hrest]
    by_cases hlink : isUnlinked view name = true
    · have hkept : rest.filter (isUnlinked { view with
          columns := view.columns ++ [linkColumn table target] }) =
          rest.filter (isUnlinked view) := by
        apply List.filter_congr
        intro other hother
        have hname := List.find?_some htable
        exact isUnlinked_append ((Text.sameName_congr hname other).trans (hnew other hother))
      rw [if_pos hlink, hkept, List.filter_cons_of_pos hlink]
      simp [linkColumns, htable, htarget]
    · rw [if_neg hlink, List.filter_cons_of_neg hlink]

theorem linkNamed_linkColumn (table : Table) (target : Column) :
    linkNamed known (linkColumn table target) = linkColumn table target :=
  rfl

theorem mem_linkColumns {names : List String} {column : Column}
    (hmem : column ∈ linkColumns known names) :
    ∃ table target, column = linkColumn table target := by
  obtain ⟨name, -, hcolumn⟩ := List.mem_filterMap.1 hmem
  obtain ⟨table, -, hlink⟩ := Option.bind_eq_some_iff.1 hcolumn
  obtain ⟨target, -, rfl⟩ := Option.map_eq_some_iff.1 hlink
  exact ⟨table, target, rfl⟩

/-- A linked view: its own columns, pointed where their names say, and the wanted
links behind them. -/
theorem IsLinkable.linkView_eq {view : ResolvedView} (hview : IsLinkable known view) :
    linkView known view =
      { view.table with
        columns := view.table.columns.map (linkNamed known) ++
          linkColumns known (wantedLinks view) } := by
  have hlinks : (linkColumns known (wantedLinks view)).map (linkNamed known) =
      linkColumns known (wantedLinks view) := by
    rw [List.map_congr_left, List.map_id]
    intro column hmem
    obtain ⟨table, target, rfl⟩ := mem_linkColumns hmem
    exact linkNamed_linkColumn table target
  rw [linkView, foldl_linkMentioned hview.distinct hview.found, ← wantedLinks]
  simp only [List.map_append, hlinks]

theorem linkView_eq (hnamed : WellNamed known) {view : ResolvedView}
    (hview : IsResolved known view) :
    linkView known view =
      { view.table with
        columns := view.table.columns.map (linkNamed known) ++
          linkColumns known (wantedLinks view) } :=
  (hview.isLinkable hnamed).linkView_eq

theorem linkColumns_targets (hnamed : WellNamed known) {names : List String}
    (hknown : ∀ name ∈ names, name ∈ known.map Table.name) :
    (linkColumns known names).filterMap
      (fun column => column.references.map ColumnReference.table) = names := by
  induction names with
  | nil => rfl
  | cons name rest ih =>
    obtain ⟨hname, hrest⟩ := List.forall_mem_cons.1 hknown
    obtain ⟨table, htable, rfl⟩ := List.mem_map.1 hname
    obtain ⟨target, htarget⟩ := exists_linkTarget? (hnamed.nonempty table htable)
    have hlink : linkColumns known (table.name :: rest) =
        linkColumn table target :: linkColumns known rest := by
      simp [linkColumns, hnamed.findTable?_eq htable, htarget]
    rw [hlink, List.filterMap_cons, ih hrest]
    rfl

end Links

/-! ## What is written of a view -/

/-- A table whose columns are followed by linking columns. -/
theorem definedColumns_of_append {table : Table} {own links : List Column}
    (hcolumns : table.columns = own ++ links) (hown : ∀ column ∈ own, column.isVirtual = false)
    (hlinks : ∀ column ∈ links, column.isVirtual = true) :
    definedColumns table = own ∧ table.columns.filter Column.isVirtual = links := by
  have hfirst : own.filter (fun column => !column.isVirtual) = own :=
    List.filter_eq_self.2 fun column hmem => by simp [hown column hmem]
  have hnone : links.filter (fun column => !column.isVirtual) = [] :=
    List.filter_eq_nil_iff.2 fun column hmem => by simp [hlinks column hmem]
  have hnoLink : own.filter Column.isVirtual = [] :=
    List.filter_eq_nil_iff.2 fun column hmem => by simp [hown column hmem]
  constructor
  · rw [definedColumns, hcolumns, List.filter_append, hfirst, hnone, List.append_nil]
  · rw [hcolumns, List.filter_append, hnoLink, List.filter_eq_self.2 hlinks, List.nil_append]

/-- Whether a column belongs to the definition of a table is a matter of its name. -/
theorem definedColumns_map {adjust : Column → Column}
    (hname : ∀ column, (adjust column).name = column.name) {table drawn : Table}
    (hcolumns : drawn.columns = table.columns.map adjust) :
    definedColumns drawn = (definedColumns table).map adjust ∧
      drawn.columns.filter Column.isVirtual =
        (table.columns.filter Column.isVirtual).map adjust := by
  have hvirtual : Column.isVirtual ∘ adjust = Column.isVirtual := by
    funext column
    rw [Function.comp_apply, Column.isVirtual, Column.isVirtual, hname]
  have hdefined : (fun column : Column => !column.isVirtual) ∘ adjust =
      fun column => !column.isVirtual := by
    funext column
    rw [Function.comp_apply, Column.isVirtual, Column.isVirtual, hname]
  rw [definedColumns, definedColumns, hcolumns, List.filter_map, List.filter_map, hvirtual,
    hdefined]
  exact ⟨rfl, rfl⟩

theorem withCardinality_name (tables : List Table) (column : Column) :
    (withCardinality tables column).name = column.name :=
  rfl

theorem isVirtual_linkColumn (table : Table) (target : Column) :
    (linkColumn table target).isVirtual = true := by
  rw [Column.isVirtual, linkColumn_name, String.toList_append, List.isPrefixOf_iff_prefix]
  exact List.prefix_append _ _

/-- The tables that a view selects from when it is written: those its columns come
from and those it wants to be linked to. -/
def writtenSources (view : ResolvedView) : List String :=
  distinctNames (view.table.columns.filterMap Column.sourceTable ++ wantedLinks view)

/-- The definition that is written for a view. -/
def writtenDefinition (view : ResolvedView) : ViewDefinition where
  name := view.table.name
  items := view.table.columns.map selectionOf
  sources := (if (writtenSources view).isEmpty then [view.table.name] else
    writtenSources view).map (⟨·, none⟩)

theorem distinctNames_append_singleton (names : List String) (name : String) :
    distinctNames (names ++ [name]) =
      if (distinctNames names).any (Text.sameName · name) then distinctNames names
      else distinctNames names ++ [name] := by
  rw [distinctNames, List.foldl_append]
  rfl

theorem mem_of_mem_distinctNames {names : List String} {name : String}
    (hmem : name ∈ distinctNames names) : name ∈ names := by
  induction names using List.reverseRecOn with
  | nil => simp [distinctNames] at hmem
  | append_singleton names last ih =>
    rw [distinctNames_append_singleton] at hmem
    split at hmem
    · exact List.mem_append_left _ (ih hmem)
    · exact List.mem_append.2 ((List.mem_append.1 hmem).imp_left ih)

theorem nodup_distinctNames (names : List String) : (distinctNames names).Nodup := by
  induction names using List.reverseRecOn with
  | nil => exact List.nodup_nil
  | append_singleton names last ih =>
    rw [distinctNames_append_singleton]
    split
    · exact ih
    · rename_i hnew
      refine List.nodup_append.2 ⟨ih, by simp, ?_⟩
      rintro name hmem _ hlast rfl
      obtain rfl := List.mem_singleton.1 hlast
      exact hnew (List.any_eq_true.2 ⟨name, hmem, Text.sameName_refl name⟩)

/-- No name is lost where names that agree up to case are the same. -/
theorem mem_distinctNames {names : List String} (hsame : ∀ left ∈ names, ∀ right ∈ names,
    Text.sameName left right = true → left = right) {name : String} (hmem : name ∈ names) :
    name ∈ distinctNames names := by
  induction names using List.reverseRecOn with
  | nil => simp at hmem
  | append_singleton names last ih =>
    have hold : name ∈ names → name ∈ distinctNames names := ih fun left hleft right hright =>
      hsame left (List.mem_append_left _ hleft) right (List.mem_append_left _ hright)
    rw [distinctNames_append_singleton]
    rcases List.mem_append.1 hmem with hbefore | hlast
    · split
      · exact hold hbefore
      · exact List.mem_append_left _ (hold hbefore)
    · obtain rfl := List.mem_singleton.1 hlast
      split
      · rename_i hany
        obtain ⟨other, hother, hagree⟩ := List.any_eq_true.1 hany
        have heq := hsame other (List.mem_append_left _ (mem_of_mem_distinctNames hother)) name
          (List.mem_append_right _ hlast) hagree
        exact heq ▸ hother
      · exact List.mem_append_right _ hlast

section Written

variable {known tables : List Table} {view : ResolvedView} {drawn : Table}

/-- A linked view is written with the columns it had before any links. -/
theorem linkView_columns (hnamed : WellNamed known) (hview : IsResolved known view)
    (hdefined : ∀ column ∈ view.table.columns, column.isVirtual = false) :
    definedColumns (linkView known view) = view.table.columns.map (linkNamed known) ∧
      (linkView known view).columns.filter Column.isVirtual =
        linkColumns known (wantedLinks view) := by
  apply definedColumns_of_append
  · rw [linkView_eq hnamed hview]
  · rw [List.forall_mem_map]
    intro column hmem
    rw [Column.isVirtual, linkNamed_name]
    exact hdefined column hmem
  · intro column hmem
    obtain ⟨table, target, rfl⟩ := mem_linkColumns hmem
    exact isVirtual_linkColumn table target

theorem selectionOf_linkNamed (column : Column) :
    selectionOf (withCardinality tables (linkNamed known column)) = selectionOf column := by
  have hname : (withCardinality tables (linkNamed known column)).name = column.name :=
    linkNamed_name known column
  have htable : (withCardinality tables (linkNamed known column)).sourceTable =
      column.sourceTable := linkNamed_sourceTable known column
  have hsource : (withCardinality tables (linkNamed known column)).sourceColumn =
      column.sourceColumn := linkNamed_sourceColumn known column
  simp only [selectionOf, hname, htable, hsource]

/-- The tables that a linked view is written with are those that its own columns
come from and those it is linked to. -/
theorem viewSources_linkView (hnamed : WellNamed known) (hview : IsResolved known view)
    (hdefined : ∀ column ∈ view.table.columns, column.isVirtual = false)
    (hname : drawn.name = view.table.name)
    (hcolumns : drawn.columns = (linkView known view).columns.map (withCardinality tables)) :
    viewSources drawn =
      if (writtenSources view).isEmpty then [view.table.name] else writtenSources view := by
  obtain ⟨-, hlinks⟩ := linkView_columns hnamed hview hdefined
  obtain ⟨-, hdrawn⟩ := definedColumns_map (withCardinality_name tables) hcolumns
  have hderived : drawn.columns.filterMap Column.sourceTable =
      view.table.columns.filterMap Column.sourceTable := by
    have hnone : (linkColumns known (wantedLinks view)).filterMap Column.sourceTable = [] := by
      rw [List.filterMap_eq_nil_iff]
      intro column hmem
      obtain ⟨table, target, rfl⟩ := mem_linkColumns hmem
      rfl
    have hadjusted : Column.sourceTable ∘ withCardinality tables = Column.sourceTable := rfl
    have hlinked : Column.sourceTable ∘ linkNamed known = Column.sourceTable :=
      funext (linkNamed_sourceTable known)
    rw [hcolumns, linkView_eq hnamed hview, List.filterMap_map, hadjusted, List.filterMap_append,
      hnone, List.append_nil, List.filterMap_map, hlinked]
  have htargets : (fun column : Column => column.references.map ColumnReference.table) ∘
      withCardinality tables = fun column => column.references.map ColumnReference.table := by
    funext column
    simp [withCardinality, Column.withCardinality, Function.comp_def]
  have hlinked : (drawn.columns.filter Column.isVirtual).filterMap
      (fun column => column.references.map ColumnReference.table) = wantedLinks view := by
    rw [hdrawn, hlinks, List.filterMap_map, htargets]
    exact linkColumns_targets hnamed fun name hmem =>
      hview.mentioned name (List.mem_filter.1 hmem).1
  rw [viewSources, hderived, hlinked, ← writtenSources, hname]

/-- A linked view is written as its definition, whatever cardinalities its
references have. -/
theorem viewDefinitionOf_linkView (hnamed : WellNamed known) (hview : IsResolved known view)
    (hdefined : ∀ column ∈ view.table.columns, column.isVirtual = false)
    (hname : drawn.name = view.table.name)
    (hcolumns : drawn.columns = (linkView known view).columns.map (withCardinality tables)) :
    viewDefinitionOf drawn = writtenDefinition view := by
  obtain ⟨hown, -⟩ := linkView_columns hnamed hview hdefined
  obtain ⟨hdrawn, -⟩ := definedColumns_map (withCardinality_name tables) hcolumns
  have hitems : (definedColumns drawn).map selectionOf = view.table.columns.map selectionOf := by
    rw [hdrawn, hown, List.map_map, List.map_map]
    exact List.map_congr_left fun column _ => selectionOf_linkNamed column
  rw [viewDefinitionOf, writtenDefinition, hitems, hname,
    viewSources_linkView hnamed hview hdefined hname hcolumns]

theorem sourceTable_mem_mentioned (hview : IsResolved known view) {column : Column}
    (hmem : column ∈ view.table.columns) {source : String}
    (hsource : column.sourceTable = some source) : source ∈ view.mentioned := by
  have hselected := hview.columns column hmem
  cases hselected with
  | derived htable horiginal aliasName =>
    obtain rfl := Option.some.inj hsource
    simpa using (List.mem_filter.1 htable).2
  | plain name type => cases hsource

theorem mem_mentioned_of_mem_sources (hview : IsResolved known view) {name : String}
    (hmem : name ∈ view.table.columns.filterMap Column.sourceTable ++ wantedLinks view) :
    name ∈ view.mentioned := by
  rcases List.mem_append.1 hmem with hderived | hwanted
  · obtain ⟨column, hcolumn, hsource⟩ := List.mem_filterMap.1 hderived
    exact sourceTable_mem_mentioned hview hcolumn hsource
  · exact (List.mem_filter.1 hwanted).1

/-- A view is written with the tables that its columns come from and those that it
wants to be linked to, all of which it mentions. -/
theorem mem_writtenSources (hnamed : WellNamed known) (hview : IsResolved known view)
    {name : String} :
    name ∈ writtenSources view ↔
      name ∈ view.table.columns.filterMap Column.sourceTable ++ wantedLinks view := by
  refine ⟨mem_of_mem_distinctNames, mem_distinctNames fun left hleft right hright hsame => ?_⟩
  exact sameName_of_mem_names hnamed (hview.mentioned left (mem_mentioned_of_mem_sources hview hleft))
    (hview.mentioned right (mem_mentioned_of_mem_sources hview hright)) hsame

end Written

end Crowfoot.Sql
