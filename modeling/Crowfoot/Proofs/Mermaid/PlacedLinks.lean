import Crowfoot.Proofs.Mermaid.RoundTrip
import Crowfoot.Proofs.Schema.Counts

/-!
# Links in diagrams

No block lists the linking columns of a table, but their relationship lines are
written like all others.  Such a line finds no column of its label: it puts its key
on a column that has some other likeness to the parent, or on a new one.  So a
diagram never gains relationships, and it keeps all of them where no other key of
the table leads to the parent of a link and no name is in the way of a new column.
-/

namespace Crowfoot.Mermaid

/-! ## Counting keys -/

section Modify

variable {α : Type} {test : α → Bool} {change : α → α}

theorem mem_modify_cases {index : Nat} {list : List α} {element : α}
    (hmem : element ∈ list.modify index change) :
    element ∈ list ∨ ∃ old ∈ list, element = change old := by
  obtain ⟨position, hposition⟩ := List.mem_iff_getElem?.1 hmem
  rw [List.getElem?_modify] at hposition
  obtain ⟨old, hold, rfl⟩ := Option.map_eq_some_iff.1 hposition
  split
  · exact Or.inr ⟨old, List.mem_of_getElem? hold, rfl⟩
  · exact Or.inl (List.mem_of_getElem? hold)

theorem countP_modify_le (index : Nat) (list : List α) :
    (list.modify index change).countP test ≤ list.countP test + 1 := by
  induction list generalizing index with
  | nil => simp
  | cons first rest ih =>
    cases index with
    | zero =>
      rw [List.modify_zero_cons, List.countP_cons, List.countP_cons]
      split <;> omega
    | succ index =>
      rw [List.modify_succ_cons, List.countP_cons, List.countP_cons]
      have hrest := ih index
      omega

/-- A change that makes one element pass adds one to those that do. -/
theorem countP_modify_of_passes {index : Nat} {list : List α} {element : α}
    (helement : list[index]? = some element) (hbefore : test element = false)
    (hafter : test (change element) = true) :
    (list.modify index change).countP test = list.countP test + 1 := by
  induction list generalizing index with
  | nil => simp at helement
  | cons first rest ih =>
    cases index with
    | zero =>
      obtain rfl := Option.some.inj helement
      simp [hbefore, hafter]
    | succ index =>
      rw [List.modify_succ_cons, List.countP_cons, List.countP_cons, ih helement]
      omega

end Modify

section Placing

variable {line : KeyLine} {key : String × String} {table : Table}

/-- The best column is free for the parent. -/
theorem isFree_of_bestColumn? {keyName : String} {columns : List Column} {index : Nat}
    (hbest : bestColumn? line keyName columns = some index) :
    ∃ column, columns[index]? = some column ∧ isFree line.parent column = true := by
  obtain ⟨suits, -, hfind⟩ := List.exists_of_findSome?_eq_some hbest
  obtain ⟨hlt, htest, -⟩ := List.findIdx?_eq_some_iff_getElem.1 hfind
  exact ⟨columns[index], List.getElem?_eq_getElem hlt, (Bool.and_eq_true_iff.1 htest).1⟩

/-- A line adds one key at most. -/
theorem keyCount_placeIn_le (line : KeyLine) (key : String × String) (table : Table) :
    (placeIn line key table).keyCount ≤ table.keyCount + 1 := by
  rcases placeIn_cases line key table with ⟨index, -, heq⟩ | ⟨-, -, heq⟩ | ⟨-, -, heq⟩
  · rw [heq]
    exact countP_modify_le index table.columns
  · rw [heq]
    exact Nat.le_succ _
  · rw [heq, Table.keyCount, List.countP_append]
    exact Nat.add_le_add_left List.countP_le_length _

/-- On a column without a reference, the key of a line is one more. -/
theorem keyCount_placeIn_of_best {index : Nat}
    (hbest : bestColumn? line key.1 table.columns = some index) {column : Column}
    (hcolumn : table.columns[index]? = some column) (hnone : column.references = none) :
    (placeIn line key table).keyCount = table.keyCount + 1 := by
  rw [placeIn, hbest]
  exact countP_modify_of_passes hcolumn (by simp [hnone]) rfl

/-- If no column leads to the parent and the name of a new column is not taken, the
key of a line is one more, wherever it is put. -/
theorem keyCount_placeIn_of_fresh
    (hfresh : ∀ column ∈ table.columns, ∀ reference ∈ column.references,
      reference.table ≠ line.parent)
    (hnew : table.column? (addedName line.parent) = none) :
    (placeIn line key table).keyCount = table.keyCount + 1 := by
  rcases placeIn_cases line key table with ⟨index, hbest, -⟩ | ⟨-, htaken, -⟩ | ⟨-, -, heq⟩
  · obtain ⟨column, hcolumn, hfree⟩ := isFree_of_bestColumn? hbest
    have hnone : column.references = none := by
      cases hreference : column.references with
      | none => rfl
      | some reference =>
        have hparent : reference.table = line.parent := by simpa [isFree, hreference] using hfree
        exact absurd hparent (hfresh column (List.mem_of_getElem? hcolumn) reference hreference)
    exact keyCount_placeIn_of_best hbest hcolumn hnone
  · simp [hnew] at htaken
  · rw [heq, Table.keyCount, List.countP_append, Table.keyCount]
    rfl

/-- The key of a line with the label of a marked column that has no reference is one
more. -/
theorem keyCount_placeIn_of_label {column : Column} (hcolumn : column ∈ table.columns)
    (hforeign : column.isForeignKey = true) (hnone : column.references = none)
    (hlabel : line.label = some column.name) :
    (placeIn line key table).keyCount = table.keyCount + 1 := by
  have hsome : (table.columns.findIdx? fun column => isFree line.parent column &&
      (column.isForeignKey && column.references.isNone &&
        line.label.any (column.name == ·))).isSome = true := by
    rw [List.findIdx?_isSome]
    exact List.any_eq_true.2 ⟨column, hcolumn, by simp [isFree, hforeign, hnone, hlabel]⟩
  obtain ⟨index, hfind⟩ := Option.isSome_iff_exists.1 hsome
  obtain ⟨hlt, htest, -⟩ := List.findIdx?_eq_some_iff_getElem.1 hfind
  simp only [Bool.and_eq_true, Option.isNone_iff_eq_none] at htest
  exact keyCount_placeIn_of_best (bestColumn?_of_label hfind) (List.getElem?_eq_getElem hlt)
    htest.2.1.2

end Placing

/-! ## The lines of one table -/

/-- Lines put their keys on a table one after the other, whatever the keys of their
parents are. -/
inductive Places : List KeyLine → Table → Table → Prop
  | nil (table : Table) : Places [] table table
  | cons {line : KeyLine} {rest : List KeyLine} {table placed : Table} (key : String × String)
    (hrest : Places rest (placeIn line key table) placed) : Places (line :: rest) table placed

theorem Places.name_eq {lines : List KeyLine} {table placed : Table}
    (hplaces : Places lines table placed) : placed.name = table.name := by
  induction hplaces with
  | nil => rfl
  | cons key _ ih => rw [ih, placeIn_name]

theorem Places.keyCount_le {lines : List KeyLine} {table placed : Table}
    (hplaces : Places lines table placed) :
    placed.keyCount ≤ table.keyCount + lines.length := by
  induction hplaces with
  | nil => exact Nat.le_refl _
  | @cons line rest table placed key _ ih =>
    have hfirst := keyCount_placeIn_le line key table
    rw [List.length_cons]
    omega

theorem exists_placeKey_eq_map {tables : List Table} (hdistinct : (tables.map Table.name).Nodup)
    {line : KeyLine} (hparent : line.parent ∈ tables.map Table.name) :
    ∃ key, placeKey tables line =
      tables.map fun table => if table.name = line.child then placeIn line key table else table := by
  have hsome : (tables.find? (·.name == line.parent)).isSome = true := by
    rw [List.find?_isSome]
    obtain ⟨parent, hmem, hname⟩ := List.mem_map.1 hparent
    exact ⟨parent, hmem, beq_iff_eq.2 hname⟩
  obtain ⟨parent, hfind⟩ := Option.isSome_iff_exists.1 hsome
  refine ⟨keyOf parent, ?_⟩
  rw [placeKey, hfind]
  exact modifyFirst_eq_map_of_nodup hdistinct _

/-- Every table is changed by its own lines only. -/
theorem foldl_placeKey_places {lines : List KeyLine} {tables : List Table}
    (hdistinct : (tables.map Table.name).Nodup)
    (hparents : ∀ line ∈ lines, line.parent ∈ tables.map Table.name) :
    List.Forall₂ (fun table placed => Places (lines.filter (·.child == table.name)) table placed)
      tables (lines.foldl placeKey tables) := by
  induction lines generalizing tables with
  | nil => exact List.forall₂_same.2 fun table _ => .nil table
  | cons line rest ih =>
    obtain ⟨hparent, hrest⟩ := List.forall_mem_cons.1 hparents
    obtain ⟨key, hplace⟩ := exists_placeKey_eq_map hdistinct hparent
    have hname (table : Table) :
        (if table.name = line.child then placeIn line key table else table).name = table.name := by
      split
      · exact placeIn_name line key table
      · rfl
    have hnames : (placeKey tables line).map Table.name = tables.map Table.name := by
      rw [hplace, List.map_map]
      exact List.map_congr_left fun table _ => hname table
    have hplaces := ih (hnames.symm ▸ hdistinct) (hnames.symm ▸ hrest)
    rw [hplace, List.forall₂_map_left_iff] at hplaces
    rw [List.foldl_cons, hplace]
    refine hplaces.imp fun table placed hall => ?_
    rw [hname] at hall
    by_cases hchild : table.name = line.child
    · have hown : (line.child == table.name) = true := beq_iff_eq.2 hchild.symm
      rw [if_pos hchild] at hall
      rw [List.filter_cons, if_pos hown]
      exact .cons key hall
    · have hother : ¬(line.child == table.name) = true := mt beq_iff_eq.1 (Ne.symm hchild)
      rw [if_neg hchild] at hall
      rwa [List.filter_cons, if_neg hother]

/-! ## Linking columns -/

/-- The line of a foreign key of a table. -/
def keyLine (table : Table) (key : Column × ColumnReference) : KeyLine :=
  (HeldKey.mk table key.1 key.2).drawn.toKeyLine

/-- Linking columns come last and lead where no other key of the table does; what a
new column for one of them would be called is neither the name of a listed column
nor that of another new one. -/
structure LinksStandApart (table : Table) : Prop where
  last : table.columns.Pairwise fun left right => left.isVirtual = true → right.isVirtual = true
  alone : ∀ link ∈ table.columns, link.isVirtual = true → ∀ other ∈ table.columns,
    other.name ≠ link.name → ∀ reference ∈ link.references, ∀ rival ∈ other.references,
      rival.table ≠ reference.table
  unnamed : ∀ link ∈ table.columns, link.isVirtual = true → ∀ reference ∈ link.references,
    ∀ column ∈ table.columns, column.isVirtual = false →
      Text.sameName column.name (addedName reference.table) = false
  different : ∀ link ∈ table.columns, link.isVirtual = true → ∀ other ∈ table.columns,
    other.isVirtual = true → other.name ≠ link.name → ∀ reference ∈ link.references,
      ∀ rival ∈ other.references,
        Text.sameName (addedName rival.table) (addedName reference.table) = false

set_option synthInstance.maxSize 400 in
instance (table : Table) : Decidable (LinksStandApart table) :=
  decidable_of_iff
    ((table.columns.Pairwise fun left right => left.isVirtual = true → right.isVirtual = true) ∧
      (∀ link ∈ table.columns, link.isVirtual = true → ∀ other ∈ table.columns,
        other.name ≠ link.name → ∀ reference ∈ link.references, ∀ rival ∈ other.references,
          rival.table ≠ reference.table) ∧
      (∀ link ∈ table.columns, link.isVirtual = true → ∀ reference ∈ link.references,
        ∀ column ∈ table.columns, column.isVirtual = false →
          Text.sameName column.name (addedName reference.table) = false) ∧
      ∀ link ∈ table.columns, link.isVirtual = true → ∀ other ∈ table.columns,
        other.isVirtual = true → other.name ≠ link.name → ∀ reference ∈ link.references,
          ∀ rival ∈ other.references,
            Text.sameName (addedName rival.table) (addedName reference.table) = false)
    ⟨fun ⟨hlast, halone, hunnamed, hdifferent⟩ => ⟨hlast, halone, hunnamed, hdifferent⟩,
      fun hapart => ⟨hapart.last, hapart.alone, hapart.unnamed, hapart.different⟩⟩

/-- Some keys of a table have been put on the table that was drawn for it, and the
columns of the others wait for theirs. -/
structure Progress (table : Table) (done todo : List (Column × ColumnReference))
    (placed : Table) : Prop where
  distinct : DistinctNames (placed.columns.map Column.name)
  names : ∀ column ∈ placed.columns,
    (∃ listed ∈ table.columns, listed.isVirtual = false ∧ column.name = listed.name) ∨
      ∃ key ∈ done, key.1.isVirtual = true ∧ column.name = addedName key.2.table
  references : ∀ column ∈ placed.columns, ∀ reference ∈ column.references,
    ∃ key ∈ done, key.2.table = reference.table
  waiting : ∀ key ∈ todo, key.1.isVirtual = false → ∃ column ∈ placed.columns,
    column.name = key.1.name ∧ column.isForeignKey = true ∧ column.references = none
  count : placed.keyCount = done.length

theorem mem_foreignKeys {table : Table} {key : Column × ColumnReference} :
    key ∈ table.foreignKeys ↔ key.1 ∈ table.columns ∧ key.1.references = some key.2 := by
  obtain ⟨column, reference⟩ := key
  simp only [Table.foreignKeys, List.mem_filterMap, Option.map_eq_some_iff, Prod.mk.injEq]
  constructor
  · rintro ⟨_, hcolumn, _, hreference, rfl, rfl⟩
    exact ⟨hcolumn, hreference⟩
  · rintro ⟨hcolumn, hreference⟩
    exact ⟨column, hcolumn, reference, hreference, rfl, rfl⟩

/-- What holds of columns in their order holds of keys in theirs. -/
theorem pairwise_foreignKeys {table : Table} {R : Column → Column → Prop}
    (hcolumns : table.columns.Pairwise R) :
    table.foreignKeys.Pairwise fun left right => R left.1 right.1 := by
  rw [Table.foreignKeys, List.pairwise_filterMap]
  apply hcolumns.imp
  intro left right hrel leftKey hleft rightKey hright
  obtain ⟨_, -, rfl⟩ := Option.map_eq_some_iff.1 hleft
  obtain ⟨_, -, rfl⟩ := Option.map_eq_some_iff.1 hright
  exact hrel

section Progress

variable {table placed : Table} {done todo : List (Column × ColumnReference)}
  {key : Column × ColumnReference}

/-- A drawn table has no keys yet. -/
theorem progress_drawnTable (hdrawable : IsDrawableTable (listedTable table)) :
    Progress table [] table.foreignKeys (drawnTable (listedTable table)) where
  distinct := by
    have hnames : (drawnTable (listedTable table)).columns.map Column.name =
        (listedTable table).columns.map Column.name := by
      rw [drawnTable, List.map_map]
      exact List.map_congr_left fun column _ => drawnColumn_name column
    rw [hnames]
    exact hdrawable.distinct
  names := by
    intro column hcolumn
    obtain ⟨listed, hlisted, rfl⟩ := List.mem_map.1 hcolumn
    obtain ⟨hmem, hpass⟩ := List.mem_filter.1 hlisted
    exact Or.inl ⟨listed, hmem, by simpa using hpass, drawnColumn_name listed⟩
  references := by
    intro column hcolumn reference hreference
    obtain ⟨listed, -, rfl⟩ := List.mem_map.1 hcolumn
    simp at hreference
  waiting := by
    intro key hkey hlisted
    obtain ⟨hcolumn, hreference⟩ := mem_foreignKeys.1 hkey
    have hmem : key.1 ∈ (listedTable table).columns :=
      List.mem_filter.2 ⟨hcolumn, by simp [hlisted]⟩
    have hforeign : key.1.isForeignKey = true := by
      rw [(hdrawable.columns key.1 hmem).consistent, hreference, Option.isSome_some]
    exact ⟨drawnColumn key.1, List.mem_map_of_mem hmem, drawnColumn_name key.1,
      (drawnColumn_isForeignKey key.1).trans hforeign, drawnColumn_references key.1⟩
  count := by
    rw [Table.keyCount, List.length_nil, List.countP_eq_zero]
    intro column hcolumn
    obtain ⟨listed, -, rfl⟩ := List.mem_map.1 hcolumn
    simp

/-- What is known of the names of a table is known after one more key. -/
theorem Progress.names_append (hprogress : Progress table done todo placed)
    (key : Column × ColumnReference) : ∀ column ∈ placed.columns,
      (∃ listed ∈ table.columns, listed.isVirtual = false ∧ column.name = listed.name) ∨
        ∃ old ∈ done ++ [key], old.1.isVirtual = true ∧ column.name = addedName old.2.table := by
  intro column hcolumn
  refine (hprogress.names column hcolumn).imp_right ?_
  rintro ⟨old, hold, hadded⟩
  exact ⟨old, List.mem_append_left _ hold, hadded⟩

theorem Progress.references_append (hprogress : Progress table done todo placed)
    (key : Column × ColumnReference) : ∀ column ∈ placed.columns,
      ∀ reference ∈ column.references, ∃ old ∈ done ++ [key], old.2.table = reference.table := by
  intro column hcolumn reference hreference
  obtain ⟨old, hold, hsame⟩ := hprogress.references column hcolumn reference hreference
  exact ⟨old, List.mem_append_left _ hold, hsame⟩

section Step

variable (hkeys : done ++ key :: todo = table.foreignKeys)

include hkeys

/-- Keys of a table are on columns of different names. -/
theorem names_ne_of_foreignKeys (hdistinct : DistinctNames (table.columns.map Column.name)) :
    (∀ old ∈ done, old.1.name ≠ key.1.name) ∧ ∀ later ∈ todo, later.1.name ≠ key.1.name := by
  have hapart := pairwise_foreignKeys (List.pairwise_map.1 hdistinct)
  rw [← hkeys, List.pairwise_append, List.pairwise_cons] at hapart
  obtain ⟨-, ⟨hlater, -⟩, hold⟩ := hapart
  constructor
  · intro old hmem hsame
    have hdiffer := hold old hmem key List.mem_cons_self
    simp [hsame] at hdiffer
  · intro later hmem hsame
    have hdiffer := hlater later hmem
    simp [hsame] at hdiffer

variable (hprogress : Progress table done (key :: todo) placed)

include hprogress

/-- Where links stand apart, no column leads to the table of a linking column yet, and
the name of a new column for it is not taken. -/
theorem Progress.link_isNew (hdistinct : DistinctNames (table.columns.map Column.name))
    (hapart : LinksStandApart table) (hlink : key.1.isVirtual = true) :
    (∀ column ∈ placed.columns, ∀ reference ∈ column.references,
      reference.table ≠ key.2.table) ∧ placed.column? (addedName key.2.table) = none := by
  obtain ⟨hcolumn, hreference⟩ := mem_foreignKeys.1 (hkeys ▸ by simp : key ∈ table.foreignKeys)
  have hdiffer := (names_ne_of_foreignKeys hkeys hdistinct).1
  have hmem : ∀ old ∈ done, old.1 ∈ table.columns ∧ old.1.references = some old.2 :=
    fun old hold => mem_foreignKeys.1 (hkeys ▸ List.mem_append_left _ hold)
  constructor
  · intro column hplaced reference hheld
    obtain ⟨old, hold, hsame⟩ := hprogress.references column hplaced reference hheld
    rw [← hsame]
    exact hapart.alone key.1 hcolumn hlink old.1 (hmem old hold).1 (hdiffer old hold) key.2
      hreference old.2 (hmem old hold).2
  · rw [Table.column?, List.find?_eq_none]
    intro column hplaced
    rw [Bool.not_eq_true]
    rcases hprogress.names column hplaced with ⟨listed, hlisted, hdefined, hname⟩ |
      ⟨old, hold, hvirtual, hname⟩
    · rw [hname]
      exact hapart.unnamed key.1 hcolumn hlink key.2 hreference listed hlisted hdefined
    · rw [hname]
      exact hapart.different key.1 hcolumn hlink old.1 (hmem old hold).1 hvirtual
        (hdiffer old hold) key.2 hreference old.2 (hmem old hold).2

variable (target : String × String)

/-- The line of a listed column puts its key there. -/
theorem Progress.step_listed (hdistinct : DistinctNames (table.columns.map Column.name))
    (hlisted : key.1.isVirtual = false) :
    Progress table (done ++ [key]) todo (placeIn (keyLine table key) target placed) := by
  obtain ⟨own, hown, hname, hforeign, hnone⟩ :=
    hprogress.waiting key List.mem_cons_self hlisted
  obtain ⟨-, hparent, hlabel⟩ := (HeldKey.mk table key.1 key.2).drawn_toKeyLine
  have hlabel : (keyLine table key).label = some own.name := hname ▸ hlabel
  have heq := placeIn_of_label hprogress.distinct hown hforeign hnone hlabel target
  have hcount : (placeIn (keyLine table key) target placed).keyCount = placed.keyCount + 1 :=
    keyCount_placeIn_of_label hown hforeign hnone hlabel
  have hkept (column : Column) : (if column.name = own.name then
      carryKey (keyLine table key) target.1 column else column).name = column.name := by
    split <;> rfl
  rw [heq] at hcount ⊢
  refine ⟨?_, ?_, ?_, ?_, ?_⟩
  · simpa only [List.map_map, Function.comp_def, hkept] using hprogress.distinct
  · rw [List.forall_mem_map]
    intro column hcolumn
    rw [hkept]
    exact hprogress.names_append key column hcolumn
  · rw [List.forall_mem_map]
    intro column hcolumn reference hreference
    split at hreference
    · obtain rfl := Option.some.inj hreference
      exact ⟨key, by simp, hparent.symm⟩
    · exact hprogress.references_append key column hcolumn reference hreference
  · intro later hlater hlaterListed
    obtain ⟨column, hcolumn, hcolumnName, hmark, hopen⟩ :=
      hprogress.waiting later (List.mem_cons_of_mem key hlater) hlaterListed
    have hdiffer : column.name ≠ own.name := by
      rw [hcolumnName, hname]
      exact (names_ne_of_foreignKeys hkeys hdistinct).2 later hlater
    exact ⟨column, List.mem_map.2 ⟨column, hcolumn, if_neg hdiffer⟩, hcolumnName, hmark, hopen⟩
  · rw [hcount, hprogress.count, List.length_append, List.length_singleton]

/-- The line of a linking column puts its key where no key is. -/
theorem Progress.step_link (hdistinct : DistinctNames (table.columns.map Column.name))
    (hapart : LinksStandApart table) (hlink : key.1.isVirtual = true) :
    Progress table (done ++ [key]) todo (placeIn (keyLine table key) target placed) := by
  obtain ⟨hfresh, hnew⟩ := hprogress.link_isNew hkeys hdistinct hapart hlink
  have hparent : (keyLine table key).parent = key.2.table :=
    (HeldKey.mk table key.1 key.2).drawn_toKeyLine.2.1
  rw [← hparent] at hfresh hnew
  have hcount : (placeIn (keyLine table key) target placed).keyCount = (done ++ [key]).length := by
    rw [keyCount_placeIn_of_fresh hfresh hnew, hprogress.count, List.length_append,
      List.length_singleton]
  -- No listed column can wait, for linking columns come last.
  have hwaiting : ∀ later ∈ todo, later.1.isVirtual = true := by
    have hlast := pairwise_foreignKeys hapart.last
    rw [← hkeys, List.pairwise_append, List.pairwise_cons] at hlast
    exact fun later hmem => hlast.2.1.1 later hmem hlink
  rcases placeIn_cases (keyLine table key) target placed with
    ⟨index, -, heq⟩ | ⟨-, htaken, -⟩ | ⟨-, hfree, heq⟩
  · refine ⟨?_, ?_, ?_, fun later hmem => by simp [hwaiting later hmem], hcount⟩
    · rw [heq, map_modify_of_keeps Column.name (carryKey_name (keyLine table key) target.1)]
      exact hprogress.distinct
    · intro column hmem
      rw [heq] at hmem
      rcases mem_modify_cases hmem with hold | ⟨old, hold, rfl⟩
      · exact hprogress.names_append key column hold
      · exact hprogress.names_append key old hold
    · intro column hmem reference hheld
      rw [heq] at hmem
      rcases mem_modify_cases hmem with hold | ⟨old, hold, rfl⟩
      · exact hprogress.references_append key column hold reference hheld
      · obtain rfl := Option.some.inj hheld
        exact ⟨key, by simp, hparent.symm⟩
  · simp [hnew] at htaken
  · refine ⟨?_, ?_, ?_, fun later hmem => by simp [hwaiting later hmem], hcount⟩
    · rw [heq]
      exact distinctNames_concat Column.name hprogress.distinct hfree
    · intro column hmem
      rw [heq] at hmem
      rcases List.mem_append.1 hmem with hold | hadded
      · exact hprogress.names_append key column hold
      · obtain rfl := List.mem_singleton.1 hadded
        exact Or.inr ⟨key, by simp, hlink, congrArg addedName hparent⟩
    · intro column hmem reference hheld
      rw [heq] at hmem
      rcases List.mem_append.1 hmem with hold | hadded
      · exact hprogress.references_append key column hold reference hheld
      · obtain rfl := List.mem_singleton.1 hadded
        obtain rfl := Option.some.inj hheld
        exact ⟨key, by simp, hparent.symm⟩

end Step

/-- Where links stand apart, every line of a table adds a key. -/
theorem Progress.run (hdistinct : DistinctNames (table.columns.map Column.name))
    (hapart : LinksStandApart table) (hkeys : done ++ todo = table.foreignKeys)
    (hprogress : Progress table done todo placed) {final : Table}
    (hplaces : Places (todo.map (keyLine table)) placed final) :
    Progress table table.foreignKeys [] final := by
  induction todo generalizing done placed with
  | nil =>
    cases hplaces
    rw [List.append_nil] at hkeys
    exact hkeys ▸ hprogress
  | cons key rest ih =>
    cases hplaces with
    | cons target hrest =>
      have hshift : (done ++ [key]) ++ rest = table.foreignKeys := by
        rw [← hkeys, List.append_assoc, List.singleton_append]
      cases hlink : key.1.isVirtual with
      | true => exact ih hshift (hprogress.step_link hkeys target hdistinct hapart hlink) hrest
      | false => exact ih hshift (hprogress.step_listed hkeys target hdistinct hlink) hrest

end Progress

/-! ## All tables -/

/-- The lines of a table are those of its own foreign keys. -/
theorem filter_lines_eq {tables : List Table} (hdistinct : (tables.map Table.name).Nodup)
    {table : Table} (htable : table ∈ tables) :
    ((heldKeys tables).map fun key => key.drawn.toKeyLine).filter (·.child == table.name) =
      table.foreignKeys.map (keyLine table) := by
  have hown (other : Table) : ((heldKeys [other]).map fun key => key.drawn.toKeyLine) =
      other.foreignKeys.map (keyLine other) := by
    rw [heldKeys, List.flatMap_singleton, List.map_map]
    rfl
  have hchild (other : Table) (key : Column × ColumnReference) :
      (keyLine other key).child = other.name :=
    (HeldKey.mk other key.1 key.2).drawn_toKeyLine.1
  have hothers {others : List Table} (hapart : ∀ other ∈ others, other.name ≠ table.name) :
      ((heldKeys others).map fun key => key.drawn.toKeyLine).filter (·.child == table.name) =
        [] := by
    rw [List.filter_eq_nil_iff, List.forall_mem_map]
    intro key hkey
    rw [key.drawn_toKeyLine.1, beq_iff_eq]
    exact hapart key.table (mem_heldKeys.1 hkey).1
  obtain ⟨before, after, rfl⟩ := List.append_of_mem htable
  have hsplit : heldKeys (before ++ table :: after) =
      heldKeys before ++ (heldKeys [table] ++ heldKeys after) := by
    rw [heldKeys, List.flatMap_append, List.flatMap_cons, heldKeys, heldKeys, heldKeys,
      List.flatMap_singleton]
  rw [List.map_append, List.map_cons, List.nodup_append, List.nodup_cons] at hdistinct
  obtain ⟨-, ⟨hafter, -⟩, hbefore⟩ := hdistinct
  have hleft : ∀ other ∈ before, other.name ≠ table.name := fun other hother =>
    hbefore other.name (List.mem_map_of_mem hother) table.name List.mem_cons_self
  have hright : ∀ other ∈ after, other.name ≠ table.name := fun other hother hsame =>
    hafter (hsame ▸ List.mem_map_of_mem hother)
  have hpass : (table.foreignKeys.map (keyLine table)).filter (·.child == table.name) =
      table.foreignKeys.map (keyLine table) := by
    rw [List.filter_eq_self, List.forall_mem_map]
    exact fun key _ => beq_iff_eq.2 (hchild table key)
  rw [hsplit, List.map_append, List.map_append, List.filter_append, List.filter_append,
    hothers hleft, hothers hright, hown, hpass, List.nil_append, List.append_nil]

theorem keyCount_settle (table : Table) :
    ({ table with columns := table.columns.map settleMark } : Table).keyCount =
      table.keyCount := by
  rw [Table.keyCount, List.countP_map, Table.keyCount]
  congr 1
  funext column
  rw [Function.comp_apply, settleMark]
  split <;> rfl

theorem keyCount_drawnTable (table : Table) : (drawnTable table).keyCount = 0 := by
  rw [Table.keyCount, List.countP_eq_zero, drawnTable, List.forall_mem_map]
  simp

/-- What a table has in common with the one that is read for it. -/
structure KeepsCount (table read : Table) : Prop where
  name : read.name = table.name
  atMost : read.keyCount ≤ table.keyCount
  same : LinksStandApart table → read.keyCount = table.keyCount

/-- The lines of a table put no more keys on what was drawn for it than it had. -/
theorem Places.keepsCount {table placed : Table}
    (hplaces : Places (table.foreignKeys.map (keyLine table)) (drawnTable (listedTable table))
      placed) (hdrawable : IsDrawableTable (listedTable table))
    (hdistinct : DistinctNames (table.columns.map Column.name)) : KeepsCount table placed where
  name := hplaces.name_eq
  atMost := by
    have hatMost := hplaces.keyCount_le
    rwa [keyCount_drawnTable, Nat.zero_add, List.length_map, length_foreignKeys] at hatMost
  same hapart := by
    have hend := (progress_drawnTable hdrawable).run hdistinct hapart (List.nil_append _) hplaces
    exact hend.count.trans (length_foreignKeys table)

/-- The lines of a schema are put on what was drawn for it, each on its own table. -/
theorem AreListable.places {tables : List Table} (hlistable : AreListable tables) :
    List.Forall₂ (fun table placed =>
        Places (table.foreignKeys.map (keyLine table)) (drawnTable (listedTable table)) placed)
      tables (((heldKeys tables).map fun key => key.drawn.toKeyLine).foldl placeKey
        ((tables.map listedTable).map drawnTable)) := by
  have hnames : ((tables.map listedTable).map drawnTable).map Table.name =
      tables.map Table.name := by
    rw [List.map_map, List.map_map]
    rfl
  have hparents : ∀ line ∈ (heldKeys tables).map fun key => key.drawn.toKeyLine,
      line.parent ∈ ((tables.map listedTable).map drawnTable).map Table.name := by
    rw [List.forall_mem_map, hnames]
    intro key hkey
    obtain ⟨htable, hcolumn, hreference⟩ := mem_heldKeys.1 hkey
    obtain ⟨target, htarget, hname⟩ :=
      hlistable.references key.table htable key.column hcolumn key.reference hreference
    rw [key.drawn_toKeyLine.2.1, ← hname]
    exact List.mem_map_of_mem htarget
  have hplaces := foldl_placeKey_places (hnames.symm ▸ hlistable.distinct) hparents
  rw [List.map_map, List.forall₂_map_left_iff, ← List.map_map] at hplaces
  exact forall₂_imp_of_mem hplaces fun table htable placed _ hplaced =>
    filter_lines_eq hlistable.distinct htable ▸ hplaced

/-- A schema that is drawn and read again has the same tables, none with more foreign
keys than it had, and all have as many where links stand apart. -/
theorem AreListable.exists_read (config : CategoryConfig) {schema : Schema}
    (hlistable : AreListable schema.tables)
    (hcolumns : ∀ table ∈ schema.tables, DistinctNames (table.columns.map Column.name)) :
    ∃ read, readSchema? config (schemaText schema) = some read ∧
      List.Forall₂ KeepsCount schema.tables read.tables := by
  refine ⟨_, by rw [readSchema?, hlistable.ofText?_schemaText, Option.map_some], ?_⟩
  obtain ⟨draw, hassign, hdraw⟩ := config.assign_eq_map (Diagram.resolve
    ⟨(schema.tables.map listedTable).map drawnTable, (heldKeys schema.tables).map HeldKey.drawn⟩)
  have hresolve : Diagram.resolve
      ⟨(schema.tables.map listedTable).map drawnTable, (heldKeys schema.tables).map HeldKey.drawn⟩ =
        (((heldKeys schema.tables).map fun key => key.drawn.toKeyLine).foldl placeKey
          ((schema.tables.map listedTable).map drawnTable)).map fun table =>
            { table with columns := table.columns.map settleMark } := by
    simp only [Diagram.resolve, List.map_map]
    rfl
  rw [hassign, hresolve, List.map_map, List.forall₂_map_right_iff]
  refine forall₂_imp_of_mem hlistable.places fun table htable placed _ hplaces => ?_
  obtain ⟨hsame, hatMost, hcount⟩ :=
    hplaces.keepsCount (hlistable.each table htable) (hcolumns table htable)
  obtain ⟨hname, hdrawn, -⟩ := hdraw { placed with columns := placed.columns.map settleMark }
  have hsettled : (draw { placed with columns := placed.columns.map settleMark }).keyCount =
      placed.keyCount := by
    rw [← keyCount_settle placed, Table.keyCount, hdrawn]
    rfl
  exact ⟨hname.trans hsame, hsettled.trans_le hatMost, fun hapart => hsettled.trans (hcount hapart)⟩

end Crowfoot.Mermaid
