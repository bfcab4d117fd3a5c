import Crowfoot.Proofs.Sql.Relinked
import Crowfoot.Proofs.Sql.Reordered

/-!
# Agreement apart from references

A foreign key bears on nothing but the reference of its column.  Tables that agree
apart from the references of the columns of some foreign keys keep agreeing so when
these keys lead to different targets, and when the same is done to both otherwise:
names and primary keys are the same in both, so every other key leads to the same
target.
-/

namespace Crowfoot

/-- Lists of corresponding elements correspond after their first matches, which are
at the same place, have been changed. -/
theorem modifyFirst_rel {α : Type} {R : α → α → Prop} {test : α → Bool} {change other : α → α}
    (htest : ∀ left right, R left right → test left = test right)
    (hchange : ∀ left right, test left = true → R left right → R (change left) (other right))
    {lefts rights : List α} (hrel : List.Forall₂ R lefts rights) :
    List.Forall₂ R (modifyFirst test change lefts) (modifyFirst test other rights) := by
  induction hrel with
  | nil => exact .nil
  | @cons left right lefts rights hfirst hrest ih =>
    rw [modifyFirst, modifyFirst, ← htest left right hfirst]
    split
    · rename_i hleft
      exact .cons (hchange left right hleft hfirst) hrest
    · exact .cons hfirst ih

/-- Columns that agree apart from their references, and in these as well unless they
are excepted. -/
structure Column.AgreesUnless (excepted : Prop) (left right : Column) : Prop where
  apart : left.clearReference = right.clearReference
  same : ¬excepted → left = right

namespace Column.AgreesUnless

variable {excepted : Prop} {left right : Column}

theorem refl (excepted : Prop) (column : Column) : column.AgreesUnless excepted column :=
  ⟨rfl, fun _ => rfl⟩

theorem name_eq (hagrees : left.AgreesUnless excepted right) : left.name = right.name := by
  change left.clearReference.name = right.clearReference.name
  rw [hagrees.apart]

theorem isPrimaryKey_eq (hagrees : left.AgreesUnless excepted right) :
    left.isPrimaryKey = right.isPrimaryKey := by
  change left.clearReference.isPrimaryKey = right.clearReference.isPrimaryKey
  rw [hagrees.apart]

theorem isUnique_eq (hagrees : left.AgreesUnless excepted right) :
    left.isUnique = right.isUnique := by
  change left.clearReference.isUnique = right.clearReference.isUnique
  rw [hagrees.apart]

/-- Columns agree after the same change, if it does not look at the reference. -/
theorem change {change : Column → Column}
    (hclear : ∀ column, (change column).clearReference =
      (change column.clearReference).clearReference)
    (hagrees : left.AgreesUnless excepted right) :
    (change left).AgreesUnless excepted (change right) where
  apart := by rw [hclear left, hagrees.apart, ← hclear right]
  same hkept := congrArg change (hagrees.same hkept)

end Column.AgreesUnless

namespace Sql

/-- The foreign key belongs to the column of a table. -/
def PendingKey.isOn (key : PendingKey) (table column : String) : Bool :=
  Text.sameName table key.table && Text.sameName column key.foreignKey.column

/-- Tables that agree apart from the references of the columns that one of the
foreign keys belongs to. -/
structure AgreesApartFrom (keys : List PendingKey) (left right : Table) : Prop where
  bare : { left with columns := [] } = { right with columns := [] }
  columns : List.Forall₂ (fun first second : Column =>
    first.AgreesUnless (∃ key ∈ keys, key.isOn left.name first.name = true) second)
      left.columns right.columns

section Agreement

variable {keys : List PendingKey}

theorem AgreesApartFrom.refl (keys : List PendingKey) (table : Table) :
    AgreesApartFrom keys table table :=
  ⟨rfl, List.forall₂_same.2 fun column _ => .refl _ column⟩

section Tables

variable {left right : Table}

theorem AgreesApartFrom.name_eq (hagrees : AgreesApartFrom keys left right) :
    left.name = right.name := by
  change ({ left with columns := [] } : Table).name = ({ right with columns := [] } : Table).name
  rw [hagrees.bare]

/-- Without any of the foreign keys there is nothing to disagree about. -/
theorem AgreesApartFrom.eq_of_nil (hagrees : AgreesApartFrom [] left right) : left = right := by
  have hcolumns : left.columns = right.columns := by
    rw [← List.forall₂_eq_eq_eq]
    refine hagrees.columns.imp fun first second hcolumn => hcolumn.same ?_
    simp
  calc
    left = { ({ left with columns := [] } : Table) with columns := left.columns } := rfl
    _ = { ({ right with columns := [] } : Table) with columns := right.columns } := by
      rw [hagrees.bare, hcolumns]
    _ = right := rfl

theorem AgreesApartFrom.sameTargets (hagrees : AgreesApartFrom keys left right) :
    SameTargets left right :=
  ⟨hagrees.name_eq, hagrees.columns.imp fun _ _ hcolumn =>
    ⟨hcolumn.name_eq, hcolumn.isPrimaryKey_eq⟩⟩

end Tables

variable {lefts rights : List Table}

theorem eq_of_agreesApartFrom_nil (hagrees : List.Forall₂ (AgreesApartFrom []) lefts rights) :
    lefts = rights := by
  rw [← List.forall₂_eq_eq_eq]
  exact hagrees.imp fun _ _ htables => htables.eq_of_nil

/-! ## Changes of columns -/

/-- Tables agree after changes of a column that leave it agreeing. -/
theorem agrees_changeColumn {table column : String} {change other : Column → Column}
    (hname : ∀ found, (change found).name = found.name)
    (hstep : ∀ owner (first second : Column), Text.sameName owner table = true →
      Text.sameName first.name column = true →
      first.AgreesUnless (∃ key ∈ keys, key.isOn owner first.name = true) second →
      (change first).AgreesUnless (∃ key ∈ keys, key.isOn owner first.name = true) (other second))
    (hagrees : List.Forall₂ (AgreesApartFrom keys) lefts rights) :
    List.Forall₂ (AgreesApartFrom keys) (changeColumn lefts table column change)
      (changeColumn rights table column other) := by
  apply modifyFirst_rel (fun _ _ htables => by rw [htables.name_eq]) ?_ hagrees
  intro left right htable htables
  refine ⟨htables.bare, ?_⟩
  apply modifyFirst_rel (fun _ _ hcolumns => by rw [hcolumns.name_eq]) ?_ htables.columns
  intro first second hcolumn hcolumns
  rw [hname]
  exact hstep left.name first second htable hcolumn hcolumns

/-- Tables agree after the same change of a column, if it does not look at the
reference. -/
theorem agrees_changeColumn_same (table column : String) {change : Column → Column}
    (hname : ∀ found, (change found).name = found.name)
    (hclear : ∀ found, (change found).clearReference =
      (change found.clearReference).clearReference)
    (hagrees : List.Forall₂ (AgreesApartFrom keys) lefts rights) :
    List.Forall₂ (AgreesApartFrom keys) (changeColumn lefts table column change)
      (changeColumn rights table column change) :=
  agrees_changeColumn hname (fun _ _ _ _ _ hcolumns => hcolumns.change hclear) hagrees

/-- Keys are added to tables that agree. -/
theorem agrees_applyKey (addition : String × Clause)
    (hagrees : List.Forall₂ (AgreesApartFrom keys) lefts rights) :
    List.Forall₂ (AgreesApartFrom keys) (applyKey lefts addition) (applyKey rights addition) := by
  rw [applyKey.eq_def, applyKey.eq_def]
  split
  · exact agrees_changeColumn_same _ _ (fun _ => rfl) (fun _ => rfl) hagrees
  · rw [modifyTable_foldl, modifyTable_foldl]
    apply List.foldl_rel hagrees
    intro name _ lefts rights hagrees
    exact agrees_changeColumn_same _ _ (fun _ => rfl) (fun _ => rfl) hagrees
  · exact hagrees

/-! ## Foreign keys -/

/-- Points the column at a target, if there is one. -/
def pointTo (target : Option (String × String)) (column : Column) : Column :=
  match target with
  | none => column
  | some (table, name) => column.referTo table name

theorem pointTo_name (target : Option (String × String)) (column : Column) :
    (pointTo target column).name = column.name := by
  cases target <;> rfl

theorem pointTo_clearReference (target : Option (String × String)) (column : Column) :
    (pointTo target column).clearReference = column.clearReference := by
  cases target <;> rfl

/-- Points the column of a foreign key at the target that is given for it. -/
def pointKey (target : ForeignKey → Option (String × String)) (tables : List Table)
    (key : PendingKey) : List Table :=
  changeColumn tables key.table key.foreignKey.column (pointTo (target key.foreignKey))

/-- A foreign key without a target changes nothing. -/
theorem pointKey_of_none {target : ForeignKey → Option (String × String)} {key : PendingKey}
    (hnone : target key.foreignKey = none) (tables : List Table) :
    pointKey target tables key = tables := by
  have hstay (table : Table) : table.modifyColumn key.foreignKey.column (pointTo none) = table :=
    congrArg (fun columns => { table with columns }) (modifyFirst_id _ table.columns)
  rw [pointKey, hnone, changeColumn, funext hstay]
  exact modifyFirst_id _ tables

theorem placeForeignKey_eq_pointKey (lenient : Bool) (tables : List Table) (key : PendingKey) :
    placeForeignKey lenient tables key = pointKey (resolveTarget? lenient tables) tables key := by
  rw [placeForeignKey]
  split
  · rename_i hnone
    rw [pointKey_of_none hnone]
  · rename_i hsome
    rw [pointKey, hsome]
    rfl

/-- No foreign key changes where the ones after it lead. -/
theorem foldl_placeForeignKey_eq_pointKey (lenient : Bool) (pending : List PendingKey)
    (tables : List Table) :
    pending.foldl (placeForeignKey lenient) tables =
      pending.foldl (pointKey (resolveTarget? lenient tables)) tables := by
  induction pending generalizing tables with
  | nil => rfl
  | cons key rest ih =>
    have hkept : resolveTarget? lenient (placeForeignKey lenient tables key) =
        resolveTarget? lenient tables :=
      funext (resolveTarget?_placeForeignKey lenient tables key)
    rw [List.foldl_cons, ih, hkept, placeForeignKey_eq_pointKey, List.foldl_cons]

/-- Tables agree apart from the foreign keys that are given different targets. -/
theorem agrees_foldl_pointKey {target other : ForeignKey → Option (String × String)}
    {pending : List PendingKey}
    (htargets : ∀ key ∈ pending, key ∉ keys → target key.foreignKey = other key.foreignKey)
    (hagrees : List.Forall₂ (AgreesApartFrom keys) lefts rights) :
    List.Forall₂ (AgreesApartFrom keys) (pending.foldl (pointKey target) lefts)
      (pending.foldl (pointKey other) rights) := by
  apply List.foldl_rel hagrees
  intro key hpending lefts rights hagrees
  refine agrees_changeColumn (pointTo_name _) ?_ hagrees
  intro owner first second htable hcolumn hcolumns
  constructor
  · rw [pointTo_clearReference, pointTo_clearReference, hcolumns.apart]
  · intro hkept
    -- The key belongs to this column, so it cannot be one of those excepted.
    have hother : key ∉ keys := fun hkey =>
      hkept ⟨key, hkey, by rw [PendingKey.isOn, htable, hcolumn]; rfl⟩
    rw [htargets key hpending hother, hcolumns.same hkept]

/-- Foreign keys are added to tables that agree. -/
theorem agrees_applyForeignKeys (addition : String × Clause)
    (hagrees : List.Forall₂ (AgreesApartFrom keys) lefts rights) :
    List.Forall₂ (AgreesApartFrom keys) (applyForeignKeys lefts addition)
      (applyForeignKeys rights addition) := by
  rw [applyForeignKeys.eq_def, applyForeignKeys.eq_def]
  split
  · apply List.foldl_rel hagrees
    intro foreignKey _ lefts rights hagrees
    have htargets : List.Forall₂ SameTargets lefts rights :=
      hagrees.imp fun _ _ htables => htables.sameTargets
    rw [placeForeignKey_eq_pointKey, placeForeignKey_eq_pointKey, pointKey, pointKey,
      resolveTarget?_eq_of_sameTargets htargets]
    refine agrees_changeColumn_same _ _ (pointTo_name _) (fun found => ?_) hagrees
    rw [pointTo_clearReference, pointTo_clearReference]
    rfl
  · exact hagrees

/-! ## Cardinalities -/

/-- A reference has the same cardinality in tables that agree. -/
theorem withCardinality_eq_of_agrees
    (hagrees : List.Forall₂ (AgreesApartFrom keys) lefts rights) :
    withCardinality lefts = withCardinality rights := by
  apply withCardinality_eq_of_sameKeys
  intro name column
  have hfound : Option.Rel (AgreesApartFrom keys) (findTable? lefts name)
      (findTable? rights name) :=
    find?_rel (fun _ _ htables => by rw [htables.name_eq]) hagrees
  apply bind_rel hfound
  intro left right htables
  have htarget : Option.Rel (fun first second : Column =>
      first.AgreesUnless (∃ key ∈ keys, key.isOn left.name first.name = true) second)
      (left.column? column) (right.column? column) :=
    find?_rel (fun _ _ hcolumns => by rw [hcolumns.name_eq]) htables.columns
  exact rel_imp htarget fun _ _ hcolumns => ⟨hcolumns.isPrimaryKey_eq, hcolumns.isUnique_eq⟩

theorem agrees_attachCardinalities
    (hagrees : List.Forall₂ (AgreesApartFrom keys) lefts rights) :
    List.Forall₂ (AgreesApartFrom keys) (attachCardinalities lefts)
      (attachCardinalities rights) := by
  rw [attachCardinalities, attachCardinalities, withCardinality_eq_of_agrees hagrees,
    List.forall₂_map_left_iff, List.forall₂_map_right_iff]
  have hclear (column : Column) : (withCardinality rights column).clearReference =
      (withCardinality rights column.clearReference).clearReference := rfl
  refine hagrees.imp fun left right htables => ⟨htables.bare, ?_⟩
  rw [List.forall₂_map_left_iff, List.forall₂_map_right_iff]
  exact htables.columns.imp fun first second hcolumns => hcolumns.change hclear

end Agreement

end Sql

end Crowfoot
