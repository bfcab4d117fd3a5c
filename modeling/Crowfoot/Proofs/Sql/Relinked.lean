import Crowfoot.Proofs.Sql.Reread
import Crowfoot.Proofs.Sql.WellFormed

/-!
# Views linked again

Links depend on names, on references and on the tables that a view mentions.  A
view that is read again has the names and references it had and mentions at least
the tables it was linked to, so the same links come out, though perhaps in another
order.  The cardinality of a reference depends on the two columns only, so it
comes out the same as well.
-/

namespace Crowfoot

open Sql (definedColumns)

/-- A base table has the columns of another one.  A view has columns that are the
same in some sense; the linking columns come last in both, but perhaps in another
order. -/
structure Table.Relinks (same : Column → Column → Prop) (read written : Table) : Prop where
  name : read.name = written.name
  isView : read.isView = written.isView
  base : written.isView = false → read.columns = written.columns
  columns : List.Forall₂ same (definedColumns read) (definedColumns written)
  links : (read.columns.filter Column.isVirtual).Perm (written.columns.filter Column.isVirtual)
  readOrder : read.columns = definedColumns read ++ read.columns.filter Column.isVirtual
  writtenOrder :
    written.columns = definedColumns written ++ written.columns.filter Column.isVirtual

namespace Sql

/-! ## Links -/

section Links

variable {known reread : List Table} {view read : ResolvedView}

theorem primaryKey?_rel {read written : Table} (hrel : read.Retypes written) :
    Option.Rel Column.Retypes read.primaryKey? written.primaryKey? :=
  find?_rel (fun left right hretypes => by rw [hretypes]) hrel.columns

theorem linkTarget?_rel {read written : Table} (hrel : read.Retypes written) :
    Option.Rel Column.Retypes (linkTarget? read) (linkTarget? written) :=
  or_rel (primaryKey?_rel hrel) (head?_rel hrel.columns)

/-- The table and the key that a column's name means. -/
def namedKey? (known : List Table) (name : String) : Option (String × String) :=
  (namedWord? name).bind fun word =>
    (known.find? fun table => !table.isView &&
      (Text.sameName table.name word || Text.sameName table.name (word ++ "s"))).bind fun table =>
        table.primaryKey?.map fun key => (table.name, key.name)

theorem linkNamed_eq (column : Column) :
    linkNamed known column =
      if column.references.isSome then
        column
      else
        match namedKey? known column.name with
        | some (table, key) => column.referTo table key
        | none => column := by
  rw [linkNamed, namedKey?]
  cases namedWord? column.name with
  | none => rfl
  | some word =>
    simp only [Option.bind_eq_bind, Option.bind_some, Option.pure_def]
    cases known.find? fun table => !table.isView &&
        (Text.sameName table.name word || Text.sameName table.name (word ++ "s")) with
    | none => rfl
    | some table =>
      rw [Option.bind_some, Option.bind_some]
      cases table.primaryKey? <;> rfl

theorem namedKey?_eq (hreread : List.Forall₂ Table.Retypes reread known) (name : String) :
    namedKey? reread name = namedKey? known name := by
  rw [namedKey?, namedKey?]
  congr 1
  funext word
  apply bind_eq_of_rel
  · apply find?_rel _ hreread
    intro left right hrel
    rw [hrel.name, hrel.isView]
  · intro table written hrel
    apply map_eq_of_rel (primaryKey?_rel hrel)
    intro key source hkeys
    rw [hrel.name, hkeys.name_eq]

/-- A column's name means the same columns as before. -/
theorem linkNamed_retypes (hreread : List.Forall₂ Table.Retypes reread known)
    {column other : Column} (hretypes : other.Retypes column) :
    (linkNamed reread other).Retypes (linkNamed known column) := by
  rw [linkNamed_eq, linkNamed_eq, hretypes.references_eq, hretypes.name_eq, namedKey?_eq hreread]
  split
  · exact hretypes
  · split
    · rw [hretypes]
      rfl
    · exact hretypes

/-- The same tables are linked by the same columns. -/
theorem linkColumns_eq (hreread : List.Forall₂ Table.Retypes reread known) (names : List String) :
    linkColumns reread names = linkColumns known names := by
  rw [linkColumns, linkColumns]
  congr 1
  funext name
  apply bind_eq_of_rel (findTable?_rel hreread name)
  intro table written hrel
  apply map_eq_of_rel (linkTarget?_rel hrel)
  intro target key hretypes
  rw [linkColumn, linkColumn, hrel.name, hretypes.name_eq]

/-- Whether a view is linked to a table does not depend on types. -/
theorem isUnlinked_eq {read written : Table} (hrel : read.Retypes written) (name : String) :
    isUnlinked read name = isUnlinked written name := by
  have hany : (read.columns.any fun column =>
        column.references.any fun reference => Text.sameName reference.table name) =
      written.columns.any fun column =>
        column.references.any fun reference => Text.sameName reference.table name :=
    any_eq_of_forall₂ (fun left right hretypes => by rw [hretypes.references_eq]) hrel.columns
  rw [isUnlinked, isUnlinked, hany, isNone_of_rel (hrel.column?_rel _)]

/-- A view that is read again wants the links that it was written with. -/
theorem wantedLinks_perm (hnamed : WellNamed known) (hview : IsResolved known view)
    (hread : Rereads read view) : (wantedLinks read).Perm (wantedLinks view) := by
  have hunlinked : isUnlinked read.table = isUnlinked view.table :=
    funext fun name => isUnlinked_eq hread.table name
  have hnodup : (wantedLinks read).Nodup := by
    rw [wantedLinks, hread.mentioned]
    exact (nodup_distinctNames _).filter _
  have hnodupView : (wantedLinks view).Nodup := hview.nodup.filter _
  rw [List.perm_ext_iff_of_nodup hnodup hnodupView]
  intro name
  rw [wantedLinks, wantedLinks, hread.mentioned, hunlinked, List.mem_filter, List.mem_filter,
    mem_writtenSources hnamed hview]
  constructor
  · rintro ⟨hsource, hwanted⟩
    exact ⟨mem_mentioned_of_mem_sources hview hsource, hwanted⟩
  · rintro ⟨hmentioned, hwanted⟩
    exact ⟨List.mem_append_right _ (List.mem_filter.2 ⟨hmentioned, hwanted⟩), hwanted⟩

/-- The links of a view that is read again come out as they were. -/
theorem linkView_relinks (hnamed : WellNamed known) (hview : IsResolved known view)
    (hdefined : ∀ column ∈ view.table.columns, column.isVirtual = false)
    (hnamedRead : WellNamed reread) (hresolved : IsResolved reread read)
    (hreread : List.Forall₂ Table.Retypes reread known) (hread : Rereads read view) :
    (linkView reread read).Relinks Column.Retypes (linkView known view) := by
  have hdefinedRead : ∀ column ∈ read.table.columns, column.isVirtual = false := by
    intro column hmem
    have hname : column.name ∈ view.table.columns.map Column.name :=
      map_name_of_retypes hread.table.columns ▸ List.mem_map_of_mem hmem
    obtain ⟨original, horiginal, heq⟩ := List.mem_map.1 hname
    rw [Column.isVirtual, ← heq]
    exact hdefined original horiginal
  obtain ⟨hown, hlinks⟩ := linkView_columns hnamed hview hdefined
  obtain ⟨hownRead, hlinksRead⟩ := linkView_columns hnamedRead hresolved hdefinedRead
  have hall := linkView_eq hnamed hview
  have hallRead := linkView_eq hnamedRead hresolved
  refine ⟨?_, ?_, ?_, ?_, ?_, ?_, ?_⟩
  · rw [hall, hallRead]
    exact hread.table.name
  · rw [hall, hallRead]
    exact hread.table.isView
  · intro hbase
    rw [hall, hview.drawn] at hbase
    cases hbase
  · rw [hown, hownRead, List.forall₂_map_left_iff, List.forall₂_map_right_iff]
    exact hread.table.columns.imp fun _ _ hretypes => linkNamed_retypes hreread hretypes
  · rw [hlinks, hlinksRead, linkColumns_eq hreread]
    exact (wantedLinks_perm hnamed hview hread).filterMap _
  · rw [hownRead, hlinksRead, hallRead]
  · rw [hown, hlinks, hall]

end Links

/-! ## Cardinalities -/

/-- Two columns are keys alike. -/
def SameKeys (read written : Column) : Prop :=
  read.isPrimaryKey = written.isPrimaryKey ∧ read.isUnique = written.isUnique

/-- No column of the table is a key. -/
def IsKeyless (table : Table) : Prop :=
  ∀ column ∈ table.columns, column.isPrimaryKey = false ∧ column.isUnique = false

theorem map_name_perm {read written : Table} (hrel : read.Relinks Column.Retypes written) :
    (read.columns.map Column.name).Perm (written.columns.map Column.name) := by
  rw [hrel.readOrder, hrel.writtenOrder, List.map_append, List.map_append,
    map_name_of_retypes hrel.columns]
  exact (hrel.links.map Column.name).append_left _

theorem column?_isSome (table : Table) (name : String) :
    (table.column? name).isSome = true ↔
      ∃ other ∈ table.columns.map Column.name, Text.sameName other name = true := by
  simp [Table.column?, List.find?_isSome]

/-- The columns of a name in a view that is linked in two ways are no keys. -/
theorem column?_sameKeys {read written : Table} (hrel : read.Relinks Column.Retypes written)
    (hread : IsKeyless read) (hwritten : IsKeyless written) (name : String) :
    Option.Rel SameKeys (read.column? name) (written.column? name) := by
  have hsome : (read.column? name).isSome = true ↔ (written.column? name).isSome = true := by
    simp only [column?_isSome, (map_name_perm hrel).mem_iff]
  cases hfound : read.column? name with
  | none =>
    cases hother : written.column? name with
    | none => exact .none
    | some other => simp [hfound, hother] at hsome
  | some column =>
    cases hother : written.column? name with
    | none => simp [hfound, hother] at hsome
    | some other =>
      obtain ⟨hprimary, hunique⟩ := hread column (Table.column?_mem hfound)
      obtain ⟨hprimary', hunique'⟩ := hwritten other (Table.column?_mem hother)
      exact .some ⟨hprimary.trans hprimary'.symm, hunique.trans hunique'.symm⟩

theorem ofKeys_eq {read written : Column} (hkeys : SameKeys read written) (column : Column) :
    Cardinality.ofKeys read column = Cardinality.ofKeys written column := by
  rw [Cardinality.ofKeys, Cardinality.ofKeys, hkeys.1, hkeys.2]

/-- Cardinalities come out the same where references lead to columns that are keys alike. -/
theorem withCardinality_eq_of_sameKeys {tables others : List Table}
    (hsame : ∀ name column, Option.Rel SameKeys
      ((findTable? tables name).bind (·.column? column))
      ((findTable? others name).bind (·.column? column))) :
    withCardinality tables = withCardinality others := by
  funext column
  rw [withCardinality, withCardinality]
  congr 1
  cases column.references with
  | none => rfl
  | some reference =>
    simp only [Option.bind_eq_bind, Option.bind_some, Option.pure_def, ← Option.bind_assoc]
    apply bind_eq_of_rel (hsame reference.table reference.column)
    intro target other hkeys
    rw [ofKeys_eq hkeys]

/-- A view that is linked in two ways; views have no keys. -/
def RelinksKeyless (read written : Table) : Prop :=
  read.Relinks Column.Retypes written ∧ IsKeyless read ∧ IsKeyless written

section Cardinalities

variable {tables reread linked : List Table} (hrel : List.Forall₂ RelinksKeyless reread linked)

include hrel

/-- The target of a reference is a key in the one schema if it is in the other. -/
theorem target_sameKeys (name column : String) :
    Option.Rel SameKeys ((findTable? (tables ++ reread) name).bind (·.column? column))
      ((findTable? (tables ++ linked) name).bind (·.column? column)) := by
  rw [findTable?, findTable?, List.find?_append, List.find?_append]
  cases tables.find? fun table => Text.sameName table.name name with
  | some table =>
    simp only [Option.some_or, Option.bind_some]
    cases table.column? column with
    | none => exact .none
    | some target => exact .some ⟨rfl, rfl⟩
  | none =>
    have hviews : Option.Rel RelinksKeyless
        (reread.find? fun table => Text.sameName table.name name)
        (linked.find? fun table => Text.sameName table.name name) :=
      find?_rel (fun left right hrelinks => by rw [hrelinks.1.name]) hrel
    rw [Option.none_or, Option.none_or]
    apply bind_rel hviews
    exact fun left right hboth => column?_sameKeys hboth.1 hboth.2.1 hboth.2.2 column

/-- Cardinalities come out the same. -/
theorem withCardinality_relinks :
    withCardinality (tables ++ reread) = withCardinality (tables ++ linked) :=
  withCardinality_eq_of_sameKeys (target_sameKeys hrel)

end Cardinalities

end Sql

end Crowfoot
