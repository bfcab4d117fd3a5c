import Crowfoot.Proofs.Sql.WrittenLinks
import Mathlib.Data.List.Forall2

/-!
# Views read again

Views that are written down are read again against the same tables and the views
in front of them.  What a select list and a `FROM` clause name is found among them
as before, so that every view gets the columns it had, types apart, and mentions
the tables that it was written with.
-/

namespace Crowfoot

/-- A column says the same as another one, but perhaps of another type. -/
def Column.Retypes (read written : Column) : Prop :=
  read = { written with type := read.type }

/-- A table says the same as another one, types apart. -/
structure Table.Retypes (read written : Table) : Prop where
  name : read.name = written.name
  isView : read.isView = written.isView
  columns : List.Forall₂ Column.Retypes read.columns written.columns

theorem Table.Retypes.refl (table : Table) : table.Retypes table :=
  ⟨rfl, rfl, List.forall₂_same.2 fun _ _ => rfl⟩

/-- The first element that passes a test corresponds to the first one that passes
it in a list of corresponding elements. -/
theorem find?_rel {α : Type} {R : α → α → Prop} {test : α → Bool}
    (htest : ∀ left right, R left right → test left = test right) {lefts rights : List α}
    (hrel : List.Forall₂ R lefts rights) :
    Option.Rel R (lefts.find? test) (rights.find? test) := by
  induction hrel with
  | nil => exact .none
  | @cons left right lefts rights hfirst hrest ih =>
    rw [List.find?_cons, List.find?_cons, htest left right hfirst]
    split
    · exact .some hfirst
    · exact ih

theorem any_eq_of_forall₂ {α : Type} {R : α → α → Prop} {test : α → Bool}
    (htest : ∀ left right, R left right → test left = test right) {lefts rights : List α}
    (hrel : List.Forall₂ R lefts rights) : lefts.any test = rights.any test := by
  induction hrel with
  | nil => rfl
  | cons hfirst _ ih => rw [List.any_cons, List.any_cons, htest _ _ hfirst, ih]

theorem head?_rel {α : Type} {R : α → α → Prop} {lefts rights : List α}
    (hrel : List.Forall₂ R lefts rights) : Option.Rel R lefts.head? rights.head? := by
  cases hrel with
  | nil => exact .none
  | cons hfirst _ => exact .some hfirst

/-- A table under the name of one that is there is found, and so is its column. -/
theorem findTable?_rel {read written : List Table}
    (hrel : List.Forall₂ Table.Retypes read written) (name : String) :
    Option.Rel Table.Retypes (findTable? read name) (findTable? written name) :=
  find?_rel (fun left right hretypes => by rw [hretypes.name]) hrel

theorem Column.Retypes.name_eq {read written : Column} (hretypes : read.Retypes written) :
    read.name = written.name := by
  rw [hretypes]

theorem Column.Retypes.references_eq {read written : Column} (hretypes : read.Retypes written) :
    read.references = written.references := by
  rw [hretypes]

theorem Table.Retypes.column?_rel {read written : Table} (hrel : read.Retypes written)
    (name : String) : Option.Rel Column.Retypes (read.column? name) (written.column? name) :=
  find?_rel (fun left right hretypes => by rw [hretypes.name_eq]) hrel.columns

section Found

variable {α β γ : Type} {R : α → β → Prop} {left : Option α} {right : Option β}

theorem exists_of_rel {found : Option α} {right : β} (hrel : Option.Rel R found (some right)) :
    ∃ left, found = some left ∧ R left right := by
  cases hrel with
  | some hleft => exact ⟨_, rfl, hleft⟩

theorem eq_none_of_rel (hrel : Option.Rel R left none) : left = none := by
  cases hrel
  rfl

theorem isNone_of_rel (hrel : Option.Rel R left right) : left.isNone = right.isNone := by
  cases hrel with
  | none => rfl
  | some => rfl

theorem or_rel {lefts : Option α} {rights : Option β} (hrel : Option.Rel R left right)
    (hothers : Option.Rel R lefts rights) : Option.Rel R (left.or lefts) (right.or rights) := by
  cases hrel with
  | none => exact hothers
  | some hsome => exact .some hsome

theorem bind_rel {δ : Type} {S : γ → δ → Prop} {read : α → Option γ} {written : β → Option δ}
    (hrel : Option.Rel R left right) (hread : ∀ a b, R a b → Option.Rel S (read a) (written b)) :
    Option.Rel S (left.bind read) (right.bind written) := by
  cases hrel with
  | none => exact .none
  | some hsome => exact hread _ _ hsome

theorem rel_imp {S : α → β → Prop} (hrel : Option.Rel R left right)
    (himp : ∀ a b, R a b → S a b) : Option.Rel S left right := by
  cases hrel with
  | none => exact .none
  | some hsome => exact .some (himp _ _ hsome)

/-- What is looked up in corresponding elements is the same if it is the same in any
two of them. -/
theorem bind_eq_of_rel {read : α → Option γ} {written : β → Option γ}
    (hrel : Option.Rel R left right) (hread : ∀ a b, R a b → read a = written b) :
    left.bind read = right.bind written := by
  cases hrel with
  | none => rfl
  | some hsome => exact hread _ _ hsome

theorem map_eq_of_rel {read : α → γ} {written : β → γ} (hrel : Option.Rel R left right)
    (hread : ∀ a b, R a b → read a = written b) : left.map read = right.map written := by
  cases hrel with
  | none => rfl
  | some hsome => exact congrArg some (hread _ _ hsome)

end Found

namespace Sql

/-! ## Names in scope -/

section Scope

variable {known : List Table} {names : List String}

/-- The tables of a list of names without aliases. -/
theorem map_name_tables (hknown : ∀ name ∈ names, ∃ table,
    findTable? known name = some table ∧ table.name = name) :
    (Scope.ofSources known (names.map (⟨·, none⟩))).tables.map Table.name = names := by
  induction names with
  | nil => rfl
  | cons name rest ih =>
    obtain ⟨⟨table, hfound, hname⟩, hrest⟩ := List.forall_mem_cons.1 hknown
    have hstep : (Scope.ofSources known ((name :: rest).map (⟨·, none⟩))).tables =
        table :: (Scope.ofSources known (rest.map (⟨·, none⟩))).tables := by
      simp [Scope.ofSources, hfound]
    rw [hstep, List.map_cons, ih hrest, hname]

/-- A name that is listed stands for the table of that name, whatever other names
are listed. -/
theorem table?_of_mem (hascii : ∀ name ∈ names, ∀ c ∈ name.toList, c.toNat < 128) {name : String}
    (hmem : name ∈ names) {table : Table} (hfound : findTable? known name = some table) :
    (Scope.ofSources known (names.map (⟨·, none⟩))).table? name = some table := by
  have hname := hascii name hmem
  obtain ⟨before, after, rfl⟩ := List.append_of_mem hmem
  rw [Scope.table?, Scope.ofSources]
  dsimp only
  rw [List.map_append, List.foldl_append, List.map_cons, List.foldl_cons]
  -- what is put in front of the name later on stands for another name or for the same table
  refine List.foldlRecOn (motive := fun aliases : List (String × Table) =>
    aliases.lookup (Text.lowerCase name) = some table) _ _ ?_ ?_
  · simp [hfound]
  · intro aliases haliases source hsource
    obtain ⟨other, hother, rfl⟩ := List.mem_map.1 hsource
    split
    · exact haliases
    · rename_i found hread
      by_cases hsame : Text.lowerCase name = Text.lowerCase other
      · have hagree := (Text.lowerCase_eq_iff hname (hascii other (by simp [hother]))).1 hsame
        rw [findTable?_congr hagree, hread] at hfound
        simpa [hsame] using hfound
      · have hlookup : (Text.lowerCase name == Text.lowerCase other) = false := by
          simpa using hsame
        simpa [List.lookup_cons, hlookup] using haliases

end Scope

/-! ## Columns -/

section Columns

variable {known reread : List Table} {names : List String}

/-- What a column of a view is written as is read as that column, types apart. -/
theorem resolveItem_selectionOf (hnamed : WellNamed known)
    (hreread : List.Forall₂ Table.Retypes reread known)
    (hascii : ∀ name ∈ names, ∀ c ∈ name.toList, c.toNat < 128)
    {column : Column} (hselected : IsSelected known column)
    (hsource : ∀ source, column.sourceTable = some source → source ∈ names) (position : Nat) :
    ∃ read, resolveItem (Scope.ofSources reread (names.map (⟨·, none⟩))) (selectionOf column)
      position = [read] ∧ read.Retypes column := by
  cases hselected with
  | @derived source original hknown horiginal aliasName =>
    have htable := findTable?_rel hreread source.name
    rw [hnamed.findTable?_eq hknown] at htable
    obtain ⟨table, hfound, htable⟩ := exists_of_rel htable
    have hcolumn := htable.column?_rel original.name
    rw [hnamed.column?_eq hknown horiginal] at hcolumn
    obtain ⟨taken, htaken, hretypes⟩ := exists_of_rel hcolumn
    have hscope := table?_of_mem hascii (hsource source.name rfl) hfound
    let given := aliasName.getD original.name
    let written := if original.name = given then none else some given
    have hgiven : written.getD taken.name = given := by
      rw [hretypes.name_eq]
      by_cases hsame : original.name = given
      · simp [written, hsame]
      · simp [written, hsame]
    refine ⟨deriveColumn table taken written, ?_, ?_⟩
    · have hitem : selectionOf (deriveColumn source original aliasName) =
          ⟨.column (some source.name) original.name, written⟩ := rfl
      rw [hitem, resolveItem]
      simp [hscope, deriveNamed?, htaken]
    · rw [hretypes] at hgiven ⊢
      simp [Column.Retypes, deriveColumn, hgiven, htable.name, given]
  | plain name type => exact ⟨_, rfl, rfl⟩

/-- Items that are read as one column each are read as their columns in order. -/
theorem forall₂_flatMap_zipIdx {read : SelectItem → Nat → List Column} {columns : List Column}
    (hread : ∀ column ∈ columns, ∀ position, ∃ found,
      read (selectionOf column) position = [found] ∧ found.Retypes column) (start : Nat) :
    List.Forall₂ Column.Retypes
      (((columns.map selectionOf).zipIdx start).flatMap fun entry => read entry.1 (entry.2 + 1))
      columns := by
  induction columns generalizing start with
  | nil => exact .nil
  | cons column rest ih =>
    obtain ⟨hcolumn, hrest⟩ := List.forall_mem_cons.1 hread
    obtain ⟨found, hfound, hretypes⟩ := hcolumn (start + 1)
    rw [List.map_cons, List.zipIdx_cons, List.flatMap_cons, hfound, List.singleton_append]
    exact .cons hretypes (ih hrest (start + 1))

theorem map_name_of_retypes {read written : List Column}
    (hrel : List.Forall₂ Column.Retypes read written) :
    read.map Column.name = written.map Column.name := by
  induction hrel with
  | nil => rfl
  | cons hfirst _ ih => rw [List.map_cons, List.map_cons, hfirst.name_eq, ih]

/-- Columns of different names are put into a table one behind the other. -/
theorem foldl_upsertColumn_append {columns : List Column} (view : Table)
    (hdistinct : DistinctNames ((view.columns ++ columns).map Column.name)) :
    columns.foldl Table.upsertColumn view = { view with columns := view.columns ++ columns } := by
  induction columns generalizing view with
  | nil => simp
  | cons column rest ih =>
    have hshift : view.columns ++ column :: rest = (view.columns ++ [column]) ++ rest := by simp
    rw [hshift] at hdistinct ⊢
    have hput : view.upsertColumn column = { view with columns := view.columns ++ [column] } := by
      rw [Table.upsertColumn, putFirst_of_distinctNames Column.name]
      rw [List.map_append] at hdistinct
      exact (List.pairwise_append.1 hdistinct).1
    rw [List.foldl_cons, hput, ih _ hdistinct]

end Columns

/-! ## Views -/

/-- A view that is read again: the columns it had, types apart, and the tables it
was written with. -/
structure Rereads (read view : ResolvedView) : Prop where
  table : read.table.Retypes view.table
  mentioned : read.mentioned = writtenSources view

section Views

variable {known reread : List Table} {view : ResolvedView}

theorem map_name_of_forall₂ {read written : List Table}
    (hrel : List.Forall₂ Table.Retypes read written) :
    read.map Table.name = written.map Table.name := by
  induction hrel with
  | nil => rfl
  | cons hfirst _ ih => rw [List.map_cons, List.map_cons, hfirst.name, ih]

theorem eraseDups_of_nodup {names : List String} (hnodup : names.Nodup) :
    names.eraseDups = names := by
  induction names with
  | nil => rfl
  | cons name rest ih =>
    obtain ⟨hnew, hrest⟩ := List.nodup_cons.1 hnodup
    have hfilter : (rest.filter fun other => !other == name) = rest := by
      rw [List.filter_eq_self]
      intro other hother
      simpa using ne_of_mem_of_not_mem hother hnew
    rw [List.eraseDups_cons, hfilter, ih hrest]

/-- A written view that is read again mentions what it was written with; one that
was written with no table selects from itself, which is not known. -/
theorem mentioned_writtenDefinition (hnamed : WellNamed known)
    (hreread : List.Forall₂ Table.Retypes reread known) (hview : IsResolved known view)
    (hfree : ∀ other ∈ known, Text.sameName other.name view.table.name = false) :
    (resolveView reread (writtenDefinition view)).mentioned = writtenSources view := by
  have hfound : ∀ name ∈ writtenSources view, ∃ table,
      findTable? reread name = some table ∧ table.name = name := by
    intro name hmem
    have hmentioned := mem_mentioned_of_mem_sources hview ((mem_writtenSources hnamed hview).1 hmem)
    obtain ⟨table, htable, rfl⟩ := List.mem_map.1 (hview.mentioned name hmentioned)
    have hrel := findTable?_rel hreread table.name
    rw [hnamed.findTable?_eq htable] at hrel
    obtain ⟨found, hfound, hretypes⟩ := exists_of_rel hrel
    exact ⟨found, hfound, hretypes.name⟩
  have htables : (Scope.ofSources reread (writtenDefinition view).sources).tables.map Table.name =
      writtenSources view := by
    rw [writtenDefinition]
    dsimp only
    by_cases hempty : (writtenSources view).isEmpty = true
    · have hnone : findTable? reread view.table.name = none := by
        have hrel := findTable?_rel hreread view.table.name
        have hnot : findTable? known view.table.name = none :=
          List.find?_eq_none.2 fun other hother => by simp [hfree other hother]
        rw [hnot] at hrel
        exact eq_none_of_rel hrel
      rw [if_pos hempty, List.isEmpty_iff.1 hempty]
      simp [Scope.ofSources, hnone]
    · rw [if_neg hempty]
      exact map_name_tables hfound
  have hnodup : (writtenSources view).eraseDups = writtenSources view :=
    eraseDups_of_nodup (nodup_distinctNames _)
  rw [resolveView]
  dsimp only
  rw [htables, hnodup]

/-- The columns that a definition selects. -/
def selectedColumns (known : List Table) (definition : ViewDefinition) : List Column :=
  definition.items.zipIdx.flatMap fun entry =>
    resolveItem (Scope.ofSources known definition.sources) entry.1 (entry.2 + 1)

/-- Columns of different names are the columns of the view, if there are any. -/
theorem resolveView_table {definition : ViewDefinition}
    (hdistinct : DistinctNames ((selectedColumns known definition).map Column.name))
    (hsome : selectedColumns known definition ≠ []) :
    (resolveView known definition).table =
      { name := definition.name, columns := selectedColumns known definition, isView := true } := by
  have hput : (selectedColumns known definition).foldl Table.upsertColumn
      { name := definition.name, isView := true } =
      { name := definition.name, columns := selectedColumns known definition, isView := true } :=
    foldl_upsertColumn_append _ hdistinct
  rw [resolveView]
  dsimp only
  rw [← selectedColumns, hput]
  exact if_neg (by simpa using hsome)

/-- A written view that is read again against the same tables and views selects the
columns it had. -/
theorem selectedColumns_writtenDefinition (hnamed : WellNamed known)
    (hreread : List.Forall₂ Table.Retypes reread known)
    (hascii : ∀ table ∈ known, ∀ c ∈ table.name.toList, c.toNat < 128)
    (hname : ∀ c ∈ view.table.name.toList, c.toNat < 128) (hview : IsResolved known view) :
    List.Forall₂ Column.Retypes (selectedColumns reread (writtenDefinition view))
      view.table.columns := by
  apply forall₂_flatMap_zipIdx
  intro column hmem position
  have hselected := (hview.columns column hmem).mono fun table htable =>
    (List.mem_filter.1 htable).1
  have hnames : ∀ name ∈ if (writtenSources view).isEmpty then [view.table.name] else
      writtenSources view, ∀ c ∈ name.toList, c.toNat < 128 := by
    split
    · exact List.forall_mem_singleton.2 hname
    · intro name hsource
      have hmentioned := mem_mentioned_of_mem_sources hview
        ((mem_writtenSources hnamed hview).1 hsource)
      obtain ⟨table, htable, rfl⟩ := List.mem_map.1 (hview.mentioned name hmentioned)
      exact hascii table htable
  refine resolveItem_selectionOf hnamed hreread hnames hselected ?_ position
  intro source hsource
  have hwritten : source ∈ writtenSources view := (mem_writtenSources hnamed hview).2
    (List.mem_append_left _ (List.mem_filterMap.2 ⟨column, hmem, hsource⟩))
  rw [if_neg (by simpa using List.ne_nil_of_mem hwritten)]
  exact hwritten

/-- A written view that is read again against the same tables and views is as it
was. -/
theorem resolveView_rereads (hnamed : WellNamed known)
    (hreread : List.Forall₂ Table.Retypes reread known)
    (hascii : ∀ table ∈ known, ∀ c ∈ table.name.toList, c.toNat < 128)
    (hname : ∀ c ∈ view.table.name.toList, c.toNat < 128) (hview : IsResolved known view)
    (hfree : ∀ other ∈ known, Text.sameName other.name view.table.name = false) :
    Rereads (resolveView reread (writtenDefinition view)) view := by
  have hcolumns := selectedColumns_writtenDefinition hnamed hreread hascii hname hview
  have hdistinct :
      DistinctNames ((selectedColumns reread (writtenDefinition view)).map Column.name) := by
    rw [map_name_of_retypes hcolumns]
    exact hview.distinct
  have hsome : selectedColumns reread (writtenDefinition view) ≠ [] := by
    intro hnil
    rw [hnil, List.forall₂_nil_left_iff] at hcolumns
    exact hview.nonempty hcolumns
  refine ⟨?_, mentioned_writtenDefinition hnamed hreread hview hfree⟩
  rw [resolveView_table hdistinct hsome]
  exact ⟨rfl, by rw [hview.drawn], hcolumns⟩

end Views

/-- Written views that are read again one after the other are the views they were
written from. -/
theorem foldl_addView_writtenDefinition {tables : List Table} {views : List ResolvedView}
    (htables : WellNamed tables) (hviews : AreResolved tables views)
    (hascii : ∀ table ∈ tables ++ views.map ResolvedView.table,
      ∀ c ∈ table.name.toList, c.toNat < 128) :
    List.Forall₂ Rereads ((views.map writtenDefinition).foldl (addView tables) []) views := by
  induction hviews with
  | nil => exact .nil
  | @snoc views view hviews hview hfree ih =>
    have hshift : tables ++ (views ++ [view]).map ResolvedView.table =
        (tables ++ views.map ResolvedView.table) ++ [view.table] := by simp
    rw [hshift, List.forall_mem_append, List.forall_mem_singleton] at hascii
    obtain ⟨hbefore, hname⟩ := hascii
    have hrereads := ih hbefore
    rw [List.map_append, List.map_singleton, List.foldl_append, List.foldl_cons, List.foldl_nil]
    generalize (views.map writtenDefinition).foldl (addView tables) [] = read at hrereads
    have hknown : List.Forall₂ Table.Retypes (tables ++ read.map ResolvedView.table)
        (tables ++ views.map ResolvedView.table) := by
      apply List.rel_append (List.forall₂_same.2 fun table _ => Table.Retypes.refl table)
      rw [List.forall₂_map_left_iff, List.forall₂_map_right_iff]
      exact hrereads.imp fun _ _ hread => hread.table
    have hfree' : ∀ other ∈ tables ++ read.map ResolvedView.table,
        Text.sameName other.name (writtenDefinition view).name = false := by
      intro other hother
      have hmem : other.name ∈ (tables ++ views.map ResolvedView.table).map Table.name :=
        map_name_of_forall₂ hknown ▸ List.mem_map_of_mem hother
      obtain ⟨known, hmem, heq⟩ := List.mem_map.1 hmem
      exact heq ▸ hfree known hmem
    rw [addView_of_free hfree']
    exact List.rel_append hrereads (.cons (resolveView_rereads (hviews.wellNamed htables) hknown
      hbefore hname hview hfree) .nil)

end Sql

end Crowfoot
