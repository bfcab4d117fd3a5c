import Crowfoot.Mermaid.Schema
import Crowfoot.Proofs.Mermaid.Redrawn
import Crowfoot.Proofs.Mermaid.Placement
import Crowfoot.Proofs.Schema.Outline
import Mathlib.Data.List.Nodup

/-!
# Diagrams of a schema

The lines of a written schema put its foreign keys back one by one.  Each line is
labelled with the name of its column, which is marked and has no reference yet,
and no other column has that name; so the label decides before any other
likeness is looked at, whatever the cardinality and however many keys there are.
-/

namespace Crowfoot.Mermaid

/-! ## The labelled column -/

section Named

variable {α : Type} {view : α → String} {name : String}

theorem map_eq_self_of_ne {list : List α} (hlist : ∀ element ∈ list, view element ≠ name)
    (change : α → α) :
    (list.map fun element => if view element = name then change element else element) = list := by
  conv_rhs => rw [← List.map_id list]
  apply List.map_congr_left
  intro element hmem
  rw [if_neg (hlist element hmem), id]

/-- A test that only the element of one name passes finds this element, so that
changing the place it finds changes the element of that name. -/
theorem exists_findIdx?_modify {test : α → Bool} {list : List α}
    (hdistinct : DistinctNames (list.map view))
    (hsome : ∃ element ∈ list, view element = name ∧ test element = true)
    (honly : ∀ element ∈ list, test element = true → view element = name) :
    ∃ index, list.findIdx? test = some index ∧ ∀ change : α → α,
      list.modify index change =
        list.map fun element => if view element = name then change element else element := by
  induction list with
  | nil => simp at hsome
  | cons first rest ih =>
    obtain ⟨hfirst, hrest⟩ := (distinctNames_cons view).1 hdistinct
    obtain ⟨honlyFirst, honlyRest⟩ := List.forall_mem_cons.1 honly
    have hapart {left right : String} (hdiffer : Text.sameName left right = false) :
        left ≠ right := by
      rintro rfl
      simp at hdiffer
    by_cases htest : test first = true
    · have hname := honlyFirst htest
      have hothers : ∀ other ∈ rest, view other ≠ name := by
        intro other hother
        rw [← hname]
        exact (hapart (hfirst other hother)).symm
      refine ⟨0, by simp [List.findIdx?_cons, htest], fun change => ?_⟩
      rw [List.map_cons, if_pos hname, map_eq_self_of_ne hothers]
      rfl
    · obtain ⟨element, hmem, hname, hpass⟩ := hsome
      rcases List.mem_cons.1 hmem with rfl | hlater
      · exact absurd hpass htest
      obtain ⟨index, hfind, hmodify⟩ := ih hrest ⟨element, hlater, hname, hpass⟩ honlyRest
      have hdiffer : view first ≠ name := by
        rw [← hname]
        exact hapart (hfirst element hlater)
      refine ⟨index + 1, by simp [List.findIdx?_cons, htest, hfind], fun change => ?_⟩
      rw [List.map_cons, if_neg hdiffer, ← hmodify change]
      rfl

/-- Where no name comes twice, changing the first element of a name changes every
element of that name. -/
theorem modifyFirst_eq_map_of_nodup {list : List α} (hdistinct : (list.map view).Nodup)
    (change : α → α) :
    modifyFirst (fun element => view element == name) change list =
      list.map fun element => if view element = name then change element else element := by
  induction list with
  | nil => rfl
  | cons first rest ih =>
    rw [List.map_cons, List.nodup_cons] at hdistinct
    rw [modifyFirst]
    by_cases hname : view first = name
    · have hothers : ∀ other ∈ rest, view other ≠ name := by
        rintro other hother rfl
        exact hdistinct.1 (hname ▸ List.mem_map_of_mem hother)
      rw [if_pos (beq_iff_eq.2 hname), List.map_cons, if_pos hname, map_eq_self_of_ne hothers]
    · rw [if_neg (mt beq_iff_eq.1 hname), List.map_cons, if_neg hname, ih hdistinct.2]

end Named

/-! ## One key -/

/-- The references of columns, by the names of their tables and their own names. -/
abbrev References := String → String → Option ColumnReference

/-- A column read again, with the reference it has got so far. -/
def redrawnColumn (references : String → Option ColumnReference) (column : Column) : Column :=
  { drawnColumn column with references := references column.name }

/-- A table read again, with the references its columns have got so far. -/
def redrawnTable (references : References) (table : Table) : Table where
  name := table.name
  columns := table.columns.map (redrawnColumn (references table.name))

theorem drawnTable_eq (table : Table) : drawnTable table = redrawnTable (fun _ _ => none) table := by
  have hcolumn (column : Column) : drawnColumn column = redrawnColumn (fun _ => none) column := by
    rw [redrawnColumn, ← drawnColumn_references column]
  rw [drawnTable, redrawnTable]
  congr 1
  exact List.map_congr_left fun column _ => hcolumn column

/-- The references with that of one key. -/
def References.put (references : References) (key : HeldKey) (reference : ColumnReference) :
    References :=
  fun table column =>
    if key.table.name = table ∧ key.column.name = column then some reference
    else references table column

/-- The reference that a line puts on a column. -/
def KeyLine.reference (line : KeyLine) (keyName : String) : ColumnReference :=
  ⟨line.parent, keyName, some line.cardinality⟩

theorem carryKey_redrawnColumn {column : Column} (hforeign : column.isForeignKey = true)
    (line : KeyLine) (keyName : String) {before after : String → Option ColumnReference}
    (hafter : after column.name = some (line.reference keyName)) :
    carryKey line keyName (redrawnColumn before column) = redrawnColumn after column := by
  have hmark : (drawnColumn column).isForeignKey = true := by simpa using hforeign
  rw [redrawnColumn, redrawnColumn, hafter, carryKey, Column.referTo, Column.withCardinality]
  simp only [Option.map_some, KeyLine.reference, ← hmark]

theorem bestColumn?_of_label {line : KeyLine} {keyName : String} {columns : List Column}
    {index : Nat}
    (hfind : (columns.findIdx? fun column => isFree line.parent column &&
      (column.isForeignKey && column.references.isNone && line.label.any (column.name == ·))) =
        some index) :
    bestColumn? line keyName columns = some index := by
  rw [bestColumn?, tiers, List.findSome?_cons, hfind]

/-- A line puts its key on the column of its label, if that is marked and has no
reference yet. -/
theorem placeIn_of_label {line : KeyLine} {table : Table}
    (hdistinct : DistinctNames (table.columns.map Column.name)) {column : Column}
    (hcolumn : column ∈ table.columns) (hforeign : column.isForeignKey = true)
    (hfree : column.references = none) (hlabel : line.label = some column.name)
    (target : String × String) :
    placeIn line target table =
      { table with
        columns := table.columns.map fun other =>
          if other.name = column.name then carryKey line target.1 other else other } := by
  have hplace : ∃ index, table.columns.findIdx? (fun column => isFree line.parent column &&
        (column.isForeignKey && column.references.isNone && line.label.any (column.name == ·))) =
          some index ∧
      ∀ change : Column → Column, table.columns.modify index change =
        table.columns.map fun other => if other.name = column.name then change other else other := by
    apply exists_findIdx?_modify hdistinct
    · exact ⟨column, hcolumn, rfl, by simp [isFree, hfree, hforeign, hlabel]⟩
    · intro other _ htest
      simp only [hlabel, Bool.and_eq_true, Option.any_some, beq_iff_eq] at htest
      exact htest.2.2
  obtain ⟨index, hfind, hmodify⟩ := hplace
  rw [placeIn, bestColumn?_of_label hfind]
  simp only [hmodify]

section Key

variable {references : References} {key : HeldKey} {line : KeyLine}

/-- A line puts its key on the column that it was written for. -/
theorem placeIn_redrawnTable (hdistinct : DistinctNames (key.table.columns.map Column.name))
    (hcolumn : key.column ∈ key.table.columns) (hforeign : key.column.isForeignKey = true)
    (hfree : references key.table.name key.column.name = none)
    (hlabel : line.label = some key.column.name) (target : String × String) :
    placeIn line target (redrawnTable references key.table) =
      redrawnTable (references.put key (line.reference target.1)) key.table := by
  have hnames : DistinctNames ((redrawnTable references key.table).columns.map Column.name) := by
    simpa [redrawnTable, redrawnColumn, Function.comp_def] using hdistinct
  have hmem : redrawnColumn (references key.table.name) key.column ∈
      (redrawnTable references key.table).columns := List.mem_map_of_mem hcolumn
  have hname : (redrawnColumn (references key.table.name) key.column).name = key.column.name :=
    drawnColumn_name key.column
  have hmark : (redrawnColumn (references key.table.name) key.column).isForeignKey = true := by
    simpa [redrawnColumn] using hforeign
  rw [placeIn_of_label hnames hmem hmark hfree (hname.symm ▸ hlabel), hname]
  rw [redrawnTable, redrawnTable, List.map_map]
  congr 1
  apply List.map_congr_left
  intro column hmem
  by_cases hname : column.name = key.column.name
  · have hsame : column = key.column :=
      eq_of_distinctNames Column.name hdistinct hmem hcolumn (by rw [hname, Text.sameName_refl])
    rw [hsame, Function.comp_apply, redrawnColumn, if_pos (drawnColumn_name key.column),
      ← redrawnColumn]
    exact carryKey_redrawnColumn hforeign line target.1 (if_pos ⟨rfl, rfl⟩)
  · have hdiffer : (redrawnColumn (references key.table.name) column).name ≠ key.column.name := by
      rw [redrawnColumn]
      simpa using hname
    have hkept : references.put key (line.reference target.1) key.table.name column.name =
        references key.table.name column.name := if_neg fun hand => hname hand.2.symm
    rw [Function.comp_apply, if_neg hdiffer, redrawnColumn, redrawnColumn, hkept]

end Key

/-! ## All keys -/

section Keys

variable {tables : List Table} (hdrawable : AreDrawable tables)

include hdrawable

/-- A line puts its key on the table that it was written for. -/
theorem AreDrawable.placeKey_redrawn {key : HeldKey} (hkey : key ∈ heldKeys tables)
    {references : References} (hfree : references key.table.name key.column.name = none) :
    ∃ keyName, placeKey (tables.map (redrawnTable references)) key.drawn.toKeyLine =
      tables.map (redrawnTable (references.put key (key.drawn.toKeyLine.reference keyName))) := by
  obtain ⟨htable, hcolumn, hreference⟩ := mem_heldKeys.1 hkey
  obtain ⟨hchild, hparent, hlabel⟩ := key.drawn_toKeyLine
  obtain ⟨target, htarget, hname⟩ :=
    hdrawable.references key.table htable key.column hcolumn key.reference hreference
  have hdrawn := hdrawable.each key.table htable
  have hforeign : key.column.isForeignKey = true := by
    rw [(hdrawn.columns key.column hcolumn).consistent, hreference, Option.isSome_some]
  have hsome : ((tables.map (redrawnTable references)).find?
      (·.name == key.drawn.toKeyLine.parent)).isSome = true := by
    rw [List.find?_isSome]
    refine ⟨redrawnTable references target, List.mem_map_of_mem htarget, ?_⟩
    simp [redrawnTable, hparent, hname]
  have hnames : ((tables.map (redrawnTable references)).map Table.name).Nodup := by
    simpa [redrawnTable, Function.comp_def] using hdrawable.distinct
  obtain ⟨parent, hfind⟩ := Option.isSome_iff_exists.1 hsome
  refine ⟨(keyOf parent).1, ?_⟩
  rw [placeKey, hfind]
  simp only [hchild, modifyFirst_eq_map_of_nodup hnames, List.map_map]
  apply List.map_congr_left
  intro table hmem
  by_cases hsame : table.name = key.table.name
  · have hself : table = key.table := List.inj_on_of_nodup_map hdrawable.distinct hmem htable hsame
    rw [hself]
    exact (if_pos rfl).trans
      (placeIn_redrawnTable hdrawn.distinct hcolumn hforeign hfree hlabel (keyOf parent))
  · have hkept : references.put key (key.drawn.toKeyLine.reference (keyOf parent).1) table.name =
        references table.name := by
      funext column
      exact if_neg fun hand => hsame hand.1.symm
    rw [Function.comp_apply, redrawnTable, if_neg hsame, redrawnTable, hkept]

/-- No column holds two keys. -/
theorem AreDrawable.pairwise_heldKeys : (heldKeys tables).Pairwise fun left right =>
    ¬ (left.table.name = right.table.name ∧ left.column.name = right.column.name) := by
  rw [heldKeys, List.pairwise_flatMap]
  constructor
  · intro table htable
    have hcolumns := List.pairwise_map.1 (hdrawable.each table htable).distinct
    rw [List.pairwise_map, Table.foreignKeys, List.pairwise_filterMap]
    apply hcolumns.imp
    intro left right hdiffer leftKey hleft rightKey hright
    obtain ⟨_, -, rfl⟩ := Option.map_eq_some_iff.1 hleft
    obtain ⟨_, -, rfl⟩ := Option.map_eq_some_iff.1 hright
    rintro ⟨-, hsame⟩
    have hname : left.name = right.name := hsame
    simp [hname] at hdiffer
  · apply (List.pairwise_map.1 hdrawable.distinct).imp
    intro left right hdiffer leftKey hleft rightKey hright
    obtain ⟨_, -, rfl⟩ := List.mem_map.1 hleft
    obtain ⟨_, -, rfl⟩ := List.mem_map.1 hright
    exact fun hand => hdiffer hand.1

/-- The references are those of some keys and no others. -/
def References.AreOf (references : References) (keys : List HeldKey) : Prop :=
  ∀ table column, (references table column).map ColumnReference.table =
    (keys.find? fun key => key.table.name = table ∧ key.column.name = column).map
      (·.reference.table)

omit hdrawable in
theorem find?_of_new {done : List HeldKey} {key : HeldKey}
    (hnew : ∀ old ∈ done,
      ¬ (old.table.name = key.table.name ∧ old.column.name = key.column.name)) :
    (done.find? fun old => old.table.name = key.table.name ∧ old.column.name = key.column.name) =
      none := by
  simpa using hnew

omit hdrawable in
theorem References.AreOf.put {references : References} {done : List HeldKey} {key : HeldKey}
    (hdone : references.AreOf done) {reference : ColumnReference}
    (hreference : reference.table = key.reference.table)
    (hnew : ∀ old ∈ done,
      ¬ (old.table.name = key.table.name ∧ old.column.name = key.column.name)) :
    (references.put key reference).AreOf (done ++ [key]) := by
  intro table column
  rw [References.put, List.find?_append]
  by_cases hat : key.table.name = table ∧ key.column.name = column
  · obtain ⟨rfl, rfl⟩ := hat
    rw [if_pos ⟨rfl, rfl⟩, find?_of_new hnew]
    simp [hreference]
  · rw [if_neg hat, hdone]
    simp [hat]

/-- All lines together put every key on its column. -/
theorem AreDrawable.foldl_placeKey {done todo : List HeldKey}
    (hall : done ++ todo = heldKeys tables) {references : References}
    (hdone : references.AreOf done) :
    ∃ placed : References, placed.AreOf (heldKeys tables) ∧
      (todo.map fun key => key.drawn.toKeyLine).foldl placeKey
        (tables.map (redrawnTable references)) = tables.map (redrawnTable placed) := by
  induction todo generalizing done references with
  | nil =>
    rw [List.append_nil] at hall
    exact ⟨references, hall ▸ hdone, rfl⟩
  | cons key rest ih =>
    have hshift : done ++ key :: rest = (done ++ [key]) ++ rest := by simp
    have hkey : key ∈ heldKeys tables := by
      rw [← hall]
      simp
    have hnew : ∀ old ∈ done,
        ¬ (old.table.name = key.table.name ∧ old.column.name = key.column.name) := by
      have hapart := hdrawable.pairwise_heldKeys
      rw [← hall] at hapart
      exact fun old hold => (List.pairwise_append.1 hapart).2.2 old hold key List.mem_cons_self
    have hfree : references key.table.name key.column.name = none := by
      have hat := hdone key.table.name key.column.name
      rwa [find?_of_new hnew, Option.map_none, Option.map_eq_none_iff] at hat
    obtain ⟨keyName, hplace⟩ := hdrawable.placeKey_redrawn hkey hfree
    have hparent : (key.drawn.toKeyLine.reference keyName).table = key.reference.table :=
      key.drawn_toKeyLine.2.1
    rw [List.map_cons, List.foldl_cons, hplace]
    exact ih (hshift ▸ hall) (hdone.put hparent hnew)

theorem References.AreOf.eq_reference {placed : References}
    (hplaced : placed.AreOf (heldKeys tables)) {table : Table} (htable : table ∈ tables)
    {column : Column} (hcolumn : column ∈ table.columns) :
    (placed table.name column.name).map ColumnReference.table =
      column.references.map ColumnReference.table := by
  have hself : ∀ key ∈ heldKeys tables, key.table.name = table.name ∧
      key.column.name = column.name → some key.reference = column.references := by
    rintro key hkey ⟨htableName, hcolumnName⟩
    obtain ⟨hmem, hheld, hreference⟩ := mem_heldKeys.1 hkey
    have hsame : key.table = table :=
      List.inj_on_of_nodup_map hdrawable.distinct hmem htable htableName
    rw [hsame] at hheld
    rw [← hreference, eq_of_distinctNames Column.name (hdrawable.each table htable).distinct hheld
      hcolumn (by rw [hcolumnName, Text.sameName_refl])]
  rw [hplaced]
  cases hfind : (heldKeys tables).find? fun key =>
      key.table.name = table.name ∧ key.column.name = column.name with
  | some key =>
    have hkey := List.mem_of_find?_eq_some hfind
    have hat : key.table.name = table.name ∧ key.column.name = column.name := by
      simpa using List.find?_some hfind
    rw [← hself key hkey hat]
    rfl
  | none =>
    cases hreference : column.references with
    | none => rfl
    | some reference =>
      have hkey : (⟨table, column, reference⟩ : HeldKey) ∈ heldKeys tables :=
        mem_heldKeys.2 ⟨htable, hcolumn, hreference⟩
      have hnone := List.find?_eq_none.1 hfind _ hkey
      simp at hnone

end Keys

/-! ## Schemas -/

/-- A column keeps its name, its primary key and the table that it refers to. -/
structure KeepsKeys (column read : Column) : Prop where
  name : read.name = column.name
  isPrimaryKey : read.isPrimaryKey = column.isPrimaryKey
  isForeignKey : read.isForeignKey = column.isForeignKey
  parent : read.references.map ColumnReference.table =
    column.references.map ColumnReference.table

theorem keepsKeys_settleMark {column : Column} (hconsistent : column.IsConsistent)
    {references : String → Option ColumnReference}
    (hreferences : (references column.name).map ColumnReference.table =
      column.references.map ColumnReference.table) :
    KeepsKeys column (settleMark (redrawnColumn references column)) := by
  cases hplaced : references column.name with
  | none =>
    rw [hplaced, Option.map_none, eq_comm, Option.map_eq_none_iff] at hreferences
    have hplain : column.isForeignKey = false := by
      rw [hconsistent, hreferences, Option.isSome_none]
    simp only [settleMark, redrawnColumn, hplaced, Option.isNone_none, if_true]
    exact ⟨drawnColumn_name column, drawnColumn_isPrimaryKey column, hplain.symm,
      by rw [hreferences]⟩
  | some reference =>
    simp only [settleMark, redrawnColumn, hplaced, Option.isNone_some, Bool.false_eq_true,
      if_false]
    exact ⟨drawnColumn_name column, drawnColumn_isPrimaryKey column,
      drawnColumn_isForeignKey column, by rw [← hreferences, hplaced]⟩

/-- A schema that is drawn and read again has the same tables and columns, and the
same columns are foreign keys to the same tables. -/
theorem schemaText_keepsForeignKeys (config : CategoryConfig) {schema : Schema}
    (hdrawable : AreDrawable schema.tables) :
    ∃ read, readSchema? config (schemaText schema) = some read ∧
      List.Forall₂ (fun table drawn => drawn.name = table.name ∧
        List.Forall₂ KeepsKeys table.columns drawn.columns) schema.tables read.tables := by
  have hnone : References.AreOf (fun _ _ => none) [] := fun _ _ => rfl
  obtain ⟨placed, hplaced, hfold⟩ :=
    hdrawable.foldl_placeKey (List.nil_append (heldKeys schema.tables)) hnone
  have hdrawn : schema.tables.map drawnTable =
      schema.tables.map (redrawnTable fun _ _ => none) :=
    List.map_congr_left fun table _ => drawnTable_eq table
  have hresolve : Diagram.resolve
      ⟨schema.tables.map drawnTable, (heldKeys schema.tables).map HeldKey.drawn⟩ =
        (schema.tables.map (redrawnTable placed)).map fun table =>
          { table with columns := table.columns.map settleMark } := by
    rw [Diagram.resolve, hdrawn, List.map_map]
    exact congrArg _ hfold
  refine ⟨_, by rw [readSchema?, hdrawable.ofText?_schemaText, Option.map_some], ?_⟩
  obtain ⟨draw, hassign, hdraw⟩ := config.assign_eq_map (Diagram.resolve
    ⟨schema.tables.map drawnTable, (heldKeys schema.tables).map HeldKey.drawn⟩)
  rw [hassign, hresolve, List.map_map, List.map_map, List.forall₂_map_right_iff, List.forall₂_same]
  intro table htable
  obtain ⟨hname, hcolumns, -⟩ :=
    hdraw { redrawnTable placed table with
      columns := (redrawnTable placed table).columns.map settleMark }
  refine ⟨hname, ?_⟩
  rw [Function.comp_apply, Function.comp_apply, hcolumns, redrawnTable, List.map_map,
    List.forall₂_map_right_iff, List.forall₂_same]
  intro column hcolumn
  have hconsistent := ((hdrawable.each table htable).columns column hcolumn).consistent
  exact keepsKeys_settleMark hconsistent (hplaced.eq_reference hdrawable htable hcolumn)

/-- Keys to one table and to their own, one of them named as a key to another column
would be, with cardinalities of all kinds. -/
def rivalTables : List Table :=
  [{ name := "users"
     columns :=
      [{ name := "id", type := "INT", isPrimaryKey := true, nullability := .notNull },
        { name := "mentor", type := "INT", isForeignKey := true,
          references := some ⟨"users", "id", none⟩ }] },
    { name := "posts"
      columns :=
        [{ name := "users_id", type := "VARCHAR (20)", isForeignKey := true,
           references := some ⟨"posts", "users_id", some ⟨.many, .many⟩⟩ },
          { name := "author", type := "INT", isForeignKey := true,
            references := some ⟨"users", "id", some ⟨.many, .one⟩⟩ },
          { name := "editor", type := "INT", isUnique := true, isForeignKey := true,
            references := some ⟨"users", "id", some ⟨.one, .zeroOrOne⟩⟩ }] }]

theorem rivalTables_areDrawable : AreDrawable rivalTables where
  each := by
    have hnames : ∀ table ∈ rivalTables, entityName table.name = table.name := by decide +kernel
    have hcolumns : ∀ table ∈ rivalTables, ∀ column ∈ table.columns,
        entityName column.name = column.name ∧ column.isVirtual = false ∧
          isAttributeWord (typeName column).toList = true ∧
            column.isForeignKey = column.references.isSome := by decide +kernel
    have hdistinct : ∀ table ∈ rivalTables, (table.columns.map Column.name).Pairwise
        fun left right => Text.sameName left right = false := by decide +kernel
    intro table htable
    refine ⟨hnames table htable, fun column hcolumn => ?_, hdistinct table htable⟩
    obtain ⟨hname, hlisted, htype, hconsistent⟩ := hcolumns table htable column hcolumn
    exact ⟨hname, hlisted, htype, hconsistent⟩
  distinct := by decide +kernel
  references := by decide +kernel

theorem rivalTables_keepForeignKeys :
    ∃ read, readSchema? .standard (schemaText ⟨"", .sql, rivalTables⟩) = some read ∧
      List.Forall₂ (fun table drawn => drawn.name = table.name ∧
        List.Forall₂ KeepsKeys table.columns drawn.columns) rivalTables read.tables :=
  schemaText_keepsForeignKeys .standard
    (show AreDrawable (Schema.mk "" .sql rivalTables).tables from rivalTables_areDrawable)

end Crowfoot.Mermaid
