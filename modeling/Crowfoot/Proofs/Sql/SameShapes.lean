import Crowfoot.Proofs.Sql.Rewritten
import Crowfoot.Proofs.Sql.ViewGaps

/-!
# Statements of the same shapes

Two scripts whose statements are of the same shapes define the same schema, but for
the types of view columns: the type of a computed expression is read off its source
text, and no other use is made of that text.  If the same types are inferred as
well, the schemas are equal.

What is followed through the making of a schema is that the base tables are the same
for both scripts and the views the same up to types.  Scopes, links and cardinalities
look at names, references and keys only, so they come out the same.
-/

namespace Crowfoot

/-- A table that is the same as another one, but perhaps for the types of columns. -/
structure Table.SameButTypes (left right : Table) : Prop where
  frame : left = { right with columns := left.columns }
  columns : List.Forall₂ Column.Retypes left.columns right.columns

namespace Table.SameButTypes

variable {left right : Table}

theorem retypes (hsame : left.SameButTypes right) : left.Retypes right where
  name := by rw [hsame.frame]
  isView := by rw [hsame.frame]
  columns := hsame.columns

theorem position_eq (hsame : left.SameButTypes right) : left.position = right.position := by
  rw [hsame.frame]

theorem withColumns (hsame : left.SameButTypes right) {lefts rights : List Column}
    (hcolumns : List.Forall₂ Column.Retypes lefts rights) :
    { left with columns := lefts }.SameButTypes { right with columns := rights } where
  frame := congrArg (fun table => { table with columns := lefts }) hsame.frame
  columns := hcolumns

end Table.SameButTypes

/-- An element is put in the same place of corresponding lists. -/
theorem putFirst_rel {α : Type} {R : α → α → Prop} {leftTest rightTest : α → Bool} {left right : α}
    (htest : ∀ old other, R old other → leftTest old = rightTest other) (helement : R left right)
    {lefts rights : List α} (hrel : List.Forall₂ R lefts rights) :
    List.Forall₂ R (putFirst leftTest left lefts) (putFirst rightTest right rights) := by
  induction hrel with
  | nil => exact .cons helement .nil
  | cons hfirst hrest ih =>
    rw [putFirst, putFirst, htest _ _ hfirst]
    split
    · exact .cons helement hrest
    · exact .cons hfirst ih

/-- Corresponding elements stand at the same places. -/
theorem zipIdx_rel {α β : Type} {R : α → β → Prop} {lefts : List α} {rights : List β}
    (hrel : List.Forall₂ R lefts rights) (start : Nat) :
    List.Forall₂ (fun left right => R left.1 right.1 ∧ left.2 = right.2)
      (lefts.zipIdx start) (rights.zipIdx start) := by
  induction hrel generalizing start with
  | nil => exact .nil
  | cons hfirst _ ih =>
    rw [List.zipIdx_cons, List.zipIdx_cons]
    exact .cons ⟨hfirst, rfl⟩ (ih (start + 1))

theorem findSome?_rel {α β γ δ : Type} {R : α → β → Prop} {S : γ → δ → Prop}
    {lefts : List α} {rights : List β} (hrel : List.Forall₂ R lefts rights)
    {read : α → Option γ} {written : β → Option δ}
    (hread : ∀ a b, R a b → Option.Rel S (read a) (written b)) :
    Option.Rel S (lefts.findSome? read) (rights.findSome? written) := by
  induction hrel with
  | nil => exact .none
  | @cons left right _ _ hfirst _ ih =>
    have hfound := hread left right hfirst
    rw [List.findSome?_cons, List.findSome?_cons]
    generalize read left = found, written right = other at hfound
    cases hfound with
    | none => exact ih
    | some hsome => exact .some hsome

theorem isSome_of_rel {α β : Type} {R : α → β → Prop} {left : Option α} {right : Option β}
    (hrel : Option.Rel R left right) : left.isSome = right.isSome := by
  cases hrel with
  | none => rfl
  | some _ => rfl

theorem forall₂_of_map_eq {α β γ : Type} {view : α → γ} {other : β → γ} {lefts : List α}
    {rights : List β} (hmap : lefts.map view = rights.map other) :
    List.Forall₂ (fun left right => view left = other right) lefts rights := by
  rw [← List.forall₂_eq_eq_eq, List.forall₂_map_left_iff, List.forall₂_map_right_iff] at hmap
  exact hmap

theorem forall₂_and {α β : Type} {R S : α → β → Prop} {lefts : List α} {rights : List β}
    (hfirst : List.Forall₂ R lefts rights) (hsecond : List.Forall₂ S lefts rights) :
    List.Forall₂ (fun left right => R left right ∧ S left right) lefts rights := by
  induction hfirst with
  | nil => exact .nil
  | cons hhead _ ih =>
    obtain ⟨hother, htail⟩ := List.forall₂_cons.1 hsecond
    exact .cons ⟨hhead, hother⟩ (ih htail)

theorem isEmpty_eq_of_forall₂ {α β : Type} {R : α → β → Prop} {lefts : List α} {rights : List β}
    (hrel : List.Forall₂ R lefts rights) : lefts.isEmpty = rights.isEmpty := by
  cases hrel with
  | nil => rfl
  | cons _ _ => rfl

theorem getD_rel {α β : Type} {R : α → β → Prop} {left : Option α} {right : Option β}
    (hrel : Option.Rel R left right) {default : α} {other : β} (hdefault : R default other) :
    R (left.getD default) (right.getD other) := by
  cases hrel with
  | none => exact hdefault
  | some hsome => exact hsome

theorem map_rel {α β γ δ : Type} {R : α → β → Prop} {S : γ → δ → Prop} {left : Option α}
    {right : Option β} (hrel : Option.Rel R left right) {read : α → γ} {written : β → δ}
    (hread : ∀ a b, R a b → S (read a) (written b)) :
    Option.Rel S (left.map read) (right.map written) := by
  cases hrel with
  | none => exact .none
  | some hsome => exact .some (hread _ _ hsome)

namespace Sql

/-! ## Scopes -/

/-- A name in scope stands for the same table, types apart. -/
def SameAlias (left right : String × Table) : Prop :=
  left.1 = right.1 ∧ left.2.Retypes right.2

theorem lookup_rel {lefts rights : List (String × Table)}
    (hrel : List.Forall₂ SameAlias lefts rights) (name : String) :
    Option.Rel Table.Retypes (lefts.lookup name) (rights.lookup name) := by
  induction hrel with
  | nil => exact .none
  | @cons left right _ _ hfirst _ ih =>
    obtain ⟨hname, htable⟩ := hfirst
    rw [List.lookup_cons, List.lookup_cons, hname]
    split
    · exact .some htable
    · exact ih

section Scopes

variable {known others : List Table} (hknown : List.Forall₂ Table.Retypes known others)

include hknown

theorem ofSources_tables_rel (sources : List TableMention) :
    List.Forall₂ Table.Retypes (Scope.ofSources known sources).tables
      (Scope.ofSources others sources).tables := by
  refine List.rel_filterMap ?_ (List.forall₂_same.2 fun source _ => rfl)
  rintro source _ rfl
  exact findTable?_rel hknown source.table

theorem ofSources_table?_rel (sources : List TableMention) (qualifier : String) :
    Option.Rel Table.Retypes ((Scope.ofSources known sources).table? qualifier)
      ((Scope.ofSources others sources).table? qualifier) := by
  apply lookup_rel
  refine List.foldl_rel .nil ?_
  intro source _ lefts rights haliases
  have hfound := findTable?_rel hknown source.table
  generalize findTable? known source.table = found, findTable? others source.table = other
    at hfound
  cases hfound with
  | none => exact haliases
  | some htable =>
    apply List.rel_append
    · exact List.rel_map (fun _ _ hname => ⟨congrArg Text.lowerCase hname, htable⟩)
        (List.forall₂_same.2 fun aliasName _ => rfl)
    · exact .cons ⟨rfl, htable⟩ haliases

end Scopes

/-! ## Views -/

theorem deriveColumn_retypes {left right : Table} (htable : left.Retypes right)
    {column other : Column} (hcolumn : column.Retypes other) (aliasName : Option String) :
    (deriveColumn left column aliasName).Retypes (deriveColumn right other aliasName) := by
  rw [Column.Retypes, deriveColumn, deriveColumn, htable.name, hcolumn]

theorem deriveNamed?_rel (name : String) (aliasName : Option String) {left right : Table}
    (htable : left.Retypes right) :
    Option.Rel Column.Retypes (deriveNamed? name aliasName left)
      (deriveNamed? name aliasName right) :=
  map_rel (htable.column?_rel name) fun _ _ hcolumn =>
    deriveColumn_retypes htable hcolumn aliasName

theorem deriveAll_rel {left right : Table} (htable : left.Retypes right) :
    List.Forall₂ Column.Retypes (deriveAll left) (deriveAll right) := by
  apply List.rel_map _ htable.columns
  intro column other hcolumn
  exact deriveColumn_retypes htable hcolumn none

/-- Two expressions of one shape are the same, or source text is kept of both. -/
theorem SelectExpression.cases_of_shape_eq {left right : SelectExpression}
    (hshape : left.shape = right.shape) :
    left = right ∨ ∃ text other, left = .computed text ∧ right = .computed other := by
  cases left <;> cases right <;> simp_all [shape]

/-- A view is read with the same columns, types apart, and mentions the same tables. -/
structure SameViews (left right : ResolvedView) : Prop where
  table : left.table.SameButTypes right.table
  drawn : right.table.isView = true
  mentioned : left.mentioned = right.mentioned

theorem upsertColumn_sameButTypes {left right : Table} (hsame : left.SameButTypes right)
    {column other : Column} (hcolumn : column.Retypes other) :
    (left.upsertColumn column).SameButTypes (right.upsertColumn other) := by
  apply hsame.withColumns
  apply putFirst_rel _ hcolumn hsame.columns
  intro old same hold
  rw [hold.name_eq, hcolumn.name_eq]

theorem foldl_upsertColumn_sameButTypes {left right : Table} (hsame : left.SameButTypes right)
    {lefts rights : List Column} (hcolumns : List.Forall₂ Column.Retypes lefts rights) :
    (lefts.foldl Table.upsertColumn left).SameButTypes (rights.foldl Table.upsertColumn right) := by
  induction hcolumns generalizing left right with
  | nil => exact hsame
  | cons hfirst _ ih => exact ih (upsertColumn_sameButTypes hsame hfirst)

section Views

variable {known others : List Table} (hknown : List.Forall₂ Table.Retypes known others)

include hknown

theorem resolveItem_rel (sources : List TableMention) {left right : SelectItem}
    (hshape : left.shape = right.shape) (position : Nat) :
    List.Forall₂ Column.Retypes (resolveItem (Scope.ofSources known sources) left position)
      (resolveItem (Scope.ofSources others sources) right position) := by
  have htables := ofSources_tables_rel hknown sources
  have htable? := ofSources_table?_rel hknown sources
  obtain ⟨expression, aliasName⟩ := left
  obtain ⟨other, _⟩ := right
  obtain ⟨hexpression, rfl⟩ := SelectItem.mk.inj hshape
  rcases SelectExpression.cases_of_shape_eq hexpression with rfl | ⟨text, otherText, rfl, rfl⟩
  · cases expression with
    | everything => exact getD_rel (map_rel (head?_rel htables) fun _ _ => deriveAll_rel) .nil
    | everythingOf qualifier =>
      exact getD_rel (map_rel (htable? qualifier) fun _ _ => deriveAll_rel) .nil
    | column qualifier name =>
      have hderive (table written : Table) := @deriveNamed?_rel name aliasName table written
      cases qualifier with
      | none => exact .cons (getD_rel (findSome?_rel htables hderive) rfl) .nil
      | some qualifier => exact .cons (getD_rel (bind_rel (htable? qualifier) hderive) rfl) .nil
    | computed text => exact .cons rfl .nil
  · exact .cons rfl .nil

theorem selectedColumns_rel {left right : ViewDefinition} (hshape : left.shape = right.shape) :
    List.Forall₂ Column.Retypes (selectedColumns known left) (selectedColumns others right) := by
  obtain ⟨name, items, sources⟩ := left
  obtain ⟨_, otherItems, _⟩ := right
  obtain ⟨rfl, hitems, rfl⟩ := ViewDefinition.mk.inj hshape
  apply List.rel_flatMap (zipIdx_rel (forall₂_of_map_eq hitems) 0)
  rintro ⟨item, index⟩ ⟨other, _⟩ ⟨hitem, rfl⟩
  exact resolveItem_rel hknown sources hitem (index + 1)

theorem resolveView_sameViews {left right : ViewDefinition} (hshape : left.shape = right.shape) :
    SameViews (resolveView known left) (resolveView others right) := by
  have hdrawn := (resolveView_isResolved others right).2.drawn
  have hname : left.name = right.name := (ViewDefinition.mk.inj hshape).1
  have hsources : left.sources = right.sources := (ViewDefinition.mk.inj hshape).2.2
  have hview : ((selectedColumns known left).foldl Table.upsertColumn
        { name := left.name, isView := true }).SameButTypes
      ((selectedColumns others right).foldl Table.upsertColumn
        { name := right.name, isView := true }) :=
    foldl_upsertColumn_sameButTypes ⟨by rw [hname], .nil⟩ (selectedColumns_rel hknown hshape)
  refine ⟨?_, by rw [hdrawn], ?_⟩
  · rw [resolveView, resolveView]
    dsimp only
    rw [← selectedColumns, ← selectedColumns, isEmpty_eq_of_forall₂ hview.columns]
    split
    · exact hview.withColumns (List.forall₂_same.2 fun _ _ => rfl)
    · exact hview
  · have htables := map_name_of_forall₂ (ofSources_tables_rel hknown left.sources)
    rw [resolveView, resolveView]
    dsimp only
    rw [htables, hsources]

theorem linkMentioned_sameButTypes {left right : Table} (hsame : left.SameButTypes right)
    (mentioned : String) :
    (linkMentioned known left mentioned).SameButTypes (linkMentioned others right mentioned) := by
  have hlinked : (left.columns.any fun column =>
        column.references.any fun reference => Text.sameName reference.table mentioned) =
      right.columns.any fun column =>
        column.references.any fun reference => Text.sameName reference.table mentioned :=
    any_eq_of_forall₂ (fun _ _ hretypes => by rw [hretypes.references_eq]) hsame.columns
  have hfound := findTable?_rel hknown mentioned
  rw [linkMentioned, linkMentioned, hlinked]
  generalize findTable? known mentioned = found, findTable? others mentioned = other at hfound
  split
  · exact hsame
  · cases hfound with
    | none => exact hsame
    | @some table written htable =>
      have htarget := linkTarget?_rel htable
      have hname := isSome_of_rel (hsame.retypes.column?_rel (Column.linkMark ++ written.name))
      dsimp only
      generalize linkTarget? table = target, linkTarget? written = key at htarget
      cases htarget with
      | none => exact hsame
      | some hkey =>
        dsimp only
        rw [htable.name, hname, hkey.name_eq]
        split
        · exact hsame
        · exact hsame.withColumns (List.rel_append hsame.columns (.cons rfl .nil))

theorem linkView_sameButTypes {left right : ResolvedView} (hviews : SameViews left right) :
    (linkView known left).SameButTypes (linkView others right) := by
  have hlinked : Table.SameButTypes (left.mentioned.foldl (linkMentioned known) left.table)
      (right.mentioned.foldl (linkMentioned others) right.table) := by
    rw [hviews.mentioned]
    apply List.foldl_rel hviews.table
    intro name _ linked other hsame
    exact linkMentioned_sameButTypes hknown hsame name
  apply hlinked.withColumns
  apply List.rel_map _ hlinked.columns
  intro column other hretypes
  exact linkNamed_retypes hknown hretypes

/-- The keys of the columns that references lead to do not depend on types. -/
theorem withCardinality_eq : withCardinality known = withCardinality others := by
  apply withCardinality_eq_of_sameKeys
  intro name column
  apply bind_rel (findTable?_rel hknown name)
  intro table written htable
  apply rel_imp (htable.column?_rel column)
  intro target key hretypes
  exact ⟨by rw [hretypes], by rw [hretypes]⟩

end Views

/-! ## Schemas -/

theorem retypes_append_views (tables : List Table) {lefts rights : List ResolvedView}
    (hviews : List.Forall₂ SameViews lefts rights) :
    List.Forall₂ Table.Retypes (tables ++ lefts.map ResolvedView.table)
      (tables ++ rights.map ResolvedView.table) := by
  apply List.rel_append (List.forall₂_same.2 fun table _ => Table.Retypes.refl table)
  exact List.rel_map (fun _ _ hview => hview.table.retypes) hviews

theorem addView_rel (tables : List Table) {lefts rights : List ResolvedView}
    (hviews : List.Forall₂ SameViews lefts rights) {left right : ViewDefinition}
    (hshape : left.shape = right.shape) :
    List.Forall₂ SameViews (addView tables lefts left) (addView tables rights right) := by
  have hname : left.name = right.name := (ViewDefinition.mk.inj hshape).1
  rw [addView, addView, hname]
  split
  · exact hviews
  · apply putFirst_rel _ (resolveView_sameViews (retypes_append_views tables hviews) hshape) hviews
    intro old other hold
    rw [hold.table.retypes.name]

theorem foldl_addView_rel (tables : List Table) {lefts rights : List ViewDefinition}
    (hshape : List.Forall₂ (fun left right => left.shape = right.shape) lefts rights)
    {views others : List ResolvedView} (hviews : List.Forall₂ SameViews views others) :
    List.Forall₂ SameViews (lefts.foldl (addView tables) views)
      (rights.foldl (addView tables) others) := by
  induction hshape generalizing views others with
  | nil => exact hviews
  | cons hfirst _ ih => exact ih (addView_rel tables hviews hfirst)

end Sql

/-- Two tables are the same, or they are views that differ in types only. -/
def Table.SameButViewTypes (left right : Table) : Prop :=
  left = right ∨ right.isView = true ∧ left.SameButTypes right

theorem Table.SameButViewTypes.retypes {left right : Table} (hsame : left.SameButViewTypes right) :
    left.Retypes right := by
  rcases hsame with rfl | ⟨_, hsame⟩
  · exact Table.Retypes.refl left
  · exact hsame.retypes

/-- Two schemas are the same, but perhaps for the types of view columns. -/
structure Schema.SameButViewTypes (left right : Schema) : Prop where
  name : left.name = right.name
  format : left.format = right.format
  tables : List.Forall₂ Table.SameButViewTypes left.tables right.tables

namespace Sql

theorem linkView_drawn (known : List Table) (view : ResolvedView) :
    (linkView known view).isView = view.table.isView := by
  rw [linkView]
  refine List.foldlRecOn (motive := fun linked : Table => linked.isView = view.table.isView)
    _ _ rfl ?_
  intro linked hlinked name _
  rcases linkMentioned_cases known linked name with hsame | ⟨table, target, _, _, _, _, hadded⟩
  · rw [hsame, hlinked]
  · rw [hadded, hlinked]

theorem attachCardinalities_rel {lefts rights : List Table}
    (hsame : List.Forall₂ Table.SameButViewTypes lefts rights) :
    List.Forall₂ Table.SameButViewTypes (attachCardinalities lefts)
      (attachCardinalities rights) := by
  have hretypes := hsame.imp fun _ _ htable => htable.retypes
  rw [attachCardinalities, attachCardinalities, withCardinality_eq hretypes]
  apply List.rel_map _ hsame
  rintro table other (rfl | ⟨hview, htable⟩)
  · exact .inl rfl
  · refine .inr ⟨hview, htable.withColumns (List.rel_map ?_ htable.columns)⟩
    intro column key hcolumn
    exact withCardinality_retypes hcolumn rights

theorem assign_rel (config : CategoryConfig) {lefts rights : List Table}
    (hsame : List.Forall₂ Table.SameButViewTypes lefts rights) :
    List.Forall₂ Table.SameButViewTypes (config.assign lefts) (config.assign rights) := by
  have hcategory (left right : Table) (htable : left.SameButViewTypes right) :
      config.categoryOf left = config.categoryOf right := by
    rw [CategoryConfig.categoryOf, CategoryConfig.categoryOf, htable.retypes.name,
      htable.retypes.isView]
  have hcategories : lefts.map config.categoryOf = rights.map config.categoryOf := by
    rw [← List.forall₂_eq_eq_eq]
    exact List.rel_map hcategory hsame
  rw [CategoryConfig.assign, CategoryConfig.assign, hcategories]
  apply List.rel_map _ hsame
  intro left right htable
  dsimp only
  rw [hcategory left right htable]
  rcases htable with rfl | ⟨hview, htable⟩
  · exact .inl rfl
  · refine .inr ⟨hview, ?_, htable.columns⟩
    rw [Table.mk.injEq, htable.retypes.name, htable.retypes.isView, htable.position_eq]
    exact ⟨rfl, rfl, rfl, rfl, rfl, rfl⟩

section Statements

variable {left right : List Statement} (hshape : left.map Statement.shape = right.map Statement.shape)

theorem tableDefinitions_map_shape (statements : List Statement) :
    tableDefinitions (statements.map Statement.shape) = tableDefinitions statements := by
  rw [tableDefinitions, tableDefinitions, List.filterMap_map]
  congr 1
  funext statement
  cases statement <;> rfl

theorem additions_map_shape (statements : List Statement) :
    additions (statements.map Statement.shape) = additions statements := by
  rw [additions, additions, List.flatMap_map]
  congr 1
  funext statement
  cases statement <;> rfl

theorem schemaName_map_shape (statements : List Statement) :
    schemaName (statements.map Statement.shape) = schemaName statements := by
  rw [schemaName, schemaName, List.filterMap_map]
  congr 3
  funext statement
  cases statement <;> rfl

theorem viewDefinitions_map_shape (statements : List Statement) :
    viewDefinitions (statements.map Statement.shape) =
      (viewDefinitions statements).map ViewDefinition.shape := by
  rw [viewDefinitions, viewDefinitions, List.filterMap_map, List.map_filterMap]
  congr 1
  funext statement
  cases statement <;> rfl

include hshape

theorem baseTables_eq_of_shape : baseTables left = baseTables right := by
  have htables := congrArg tableDefinitions hshape
  have hadditions := congrArg additions hshape
  rw [tableDefinitions_map_shape, tableDefinitions_map_shape] at htables
  rw [additions_map_shape, additions_map_shape] at hadditions
  simp only [baseTables, catalogOf, htables, hadditions]

theorem resolveViews_rel :
    List.Forall₂ SameViews (resolveViews left (baseTables left))
      (resolveViews right (baseTables right)) := by
  have hviews := congrArg viewDefinitions hshape
  rw [viewDefinitions_map_shape, viewDefinitions_map_shape] at hviews
  rw [baseTables_eq_of_shape hshape]
  exact foldl_addView_rel _ (forall₂_of_map_eq hviews) .nil

/-- Statements of the same shapes define the same tables, but perhaps for the types of
view columns. -/
theorem schemaTables_rel :
    List.Forall₂ Table.SameButViewTypes (schemaTables left) (schemaTables right) := by
  have hviews := resolveViews_rel hshape
  rw [schemaTables, schemaTables]
  rw [baseTables_eq_of_shape hshape] at hviews ⊢
  have hknown := retypes_append_views (baseTables right) hviews
  have hlinked : List.Forall₂ Table.SameButViewTypes
      (linkViews (baseTables right) (resolveViews left (baseTables right)))
      (linkViews (baseTables right) (resolveViews right (baseTables right))) := by
    apply List.rel_map _ hviews
    intro view other hview
    exact .inr ⟨(linkView_drawn _ other).trans hview.drawn, linkView_sameButTypes hknown hview⟩
  apply attachCardinalities_rel
  exact List.rel_append (List.forall₂_same.2 fun table _ => .inl rfl) hlinked

/-- Statements of the same shapes define the same schema, but perhaps for the types of
view columns. -/
theorem schemaOfStatements?_rel (config : CategoryConfig) :
    Option.Rel Schema.SameButViewTypes (schemaOfStatements? config left)
      (schemaOfStatements? config right) := by
  have htables := schemaTables_rel hshape
  have hname := congrArg schemaName hshape
  rw [schemaName_map_shape, schemaName_map_shape] at hname
  rw [schemaOfStatements?, schemaOfStatements?, isEmpty_eq_of_forall₂ htables]
  split
  · exact .none
  · exact .some ⟨hname, rfl, assign_rel config htables⟩

end Statements

/-! ## Types of computed expressions -/

/-- The type that is inferred for an expression, if it is computed. -/
def SelectExpression.type? : SelectExpression → Option ExpressionType
  | .computed text => some (.ofText text)
  | _ => none

/-- The types that are inferred for the items of a view. -/
def ViewDefinition.inferredTypes (definition : ViewDefinition) : List (Option ExpressionType) :=
  definition.items.map fun item => item.expression.type?

/-- The types that are inferred for the items of a statement; a statement that defines
no view has none. -/
def Statement.inferredTypes : Statement → List (Option ExpressionType)
  | .createView definition => definition.inferredTypes
  | _ => []

/-- The types that are inferred in a script, statement by statement. -/
def inferredTypes (script : String) : List (List (Option ExpressionType)) :=
  (Statement.ofScript script.toList).map Statement.inferredTypes

/-- Two views are of one shape and the same types are inferred for them. -/
def SameTypes (left right : ViewDefinition) : Prop :=
  left.shape = right.shape ∧ left.inferredTypes = right.inferredTypes

/-- Of the source text of an expression only the type that is inferred from it gets into
a view. -/
theorem resolveItem_congr (scope : Scope) {left right : SelectItem}
    (hshape : left.shape = right.shape) (htype : left.expression.type? = right.expression.type?)
    (position : Nat) : resolveItem scope left position = resolveItem scope right position := by
  obtain ⟨expression, aliasName⟩ := left
  obtain ⟨other, _⟩ := right
  obtain ⟨hexpression, rfl⟩ := SelectItem.mk.inj hshape
  rcases SelectExpression.cases_of_shape_eq hexpression with rfl | ⟨text, otherText, rfl, rfl⟩
  · rfl
  · have hinferred : ExpressionType.ofText text = .ofText otherText := Option.some.inj htype
    simp only [resolveItem, hinferred]

theorem resolveView_congr (known : List Table) {left right : ViewDefinition}
    (hsame : SameTypes left right) : resolveView known left = resolveView known right := by
  obtain ⟨hshape, htypes⟩ := hsame
  obtain ⟨hname, hitems, hsources⟩ := ViewDefinition.mk.inj hshape
  have hitems : List.Forall₂ (fun item other => item.shape = other.shape ∧
      item.expression.type? = other.expression.type?) left.items right.items :=
    forall₂_and (forall₂_of_map_eq hitems) (forall₂_of_map_eq htypes)
  have hcolumns : selectedColumns known left = selectedColumns known right := by
    rw [selectedColumns, selectedColumns, hsources, ← List.forall₂_eq_eq_eq]
    apply List.rel_flatMap (zipIdx_rel hitems 0)
    rintro ⟨item, index⟩ ⟨other, _⟩ ⟨⟨hitem, htype⟩, rfl⟩
    rw [List.forall₂_eq_eq_eq]
    exact resolveItem_congr _ hitem htype (index + 1)
  rw [resolveView, resolveView]
  dsimp only
  rw [← selectedColumns, ← selectedColumns, hcolumns, hname, hsources]

theorem addView_congr (tables : List Table) (views : List ResolvedView)
    {left right : ViewDefinition} (hsame : SameTypes left right) :
    addView tables views left = addView tables views right := by
  have hname : left.name = right.name := (ViewDefinition.mk.inj hsame.1).1
  rw [addView, addView, hname, resolveView_congr _ hsame]

theorem foldl_addView_congr (tables : List Table) {lefts rights : List ViewDefinition}
    (hsame : List.Forall₂ SameTypes lefts rights) (views : List ResolvedView) :
    lefts.foldl (addView tables) views = rights.foldl (addView tables) views := by
  induction hsame generalizing views with
  | nil => rfl
  | cons hfirst _ ih => rw [List.foldl_cons, List.foldl_cons, addView_congr tables views hfirst, ih]

/-- Two statements of one shape are the same, or both define views. -/
theorem Statement.cases_of_shape_eq {left right : Statement} (hshape : left.shape = right.shape) :
    left = right ∨ ∃ view other, left = .createView view ∧ right = .createView other ∧
      view.shape = other.shape := by
  cases left <;> cases right <;> simp_all [shape]

theorem viewDefinitions_sameTypes {left right : List Statement}
    (hshape : left.map Statement.shape = right.map Statement.shape)
    (htypes : left.map Statement.inferredTypes = right.map Statement.inferredTypes) :
    List.Forall₂ SameTypes (viewDefinitions left) (viewDefinitions right) := by
  apply List.rel_filterMap _ (forall₂_and (forall₂_of_map_eq hshape) (forall₂_of_map_eq htypes))
  rintro statement other ⟨hstatement, hinferred⟩
  rcases Statement.cases_of_shape_eq hstatement with rfl | ⟨view, written, rfl, rfl, hview⟩
  · cases statement with
    | createView definition => exact .some ⟨rfl, rfl⟩
    | createTable | alterTable | nameSchema => exact .none
  · exact .some ⟨hview, hinferred⟩

/-- Statements of the same shapes and inferred types define the same schema. -/
theorem schemaOfStatements?_congr (config : CategoryConfig) {left right : List Statement}
    (hshape : left.map Statement.shape = right.map Statement.shape)
    (htypes : left.map Statement.inferredTypes = right.map Statement.inferredTypes) :
    schemaOfStatements? config left = schemaOfStatements? config right := by
  have hname := congrArg schemaName hshape
  rw [schemaName_map_shape, schemaName_map_shape] at hname
  have hviews : resolveViews left (baseTables right) = resolveViews right (baseTables right) :=
    foldl_addView_congr _ (viewDefinitions_sameTypes hshape htypes) []
  have htables : schemaTables left = schemaTables right := by
    rw [schemaTables, schemaTables, baseTables_eq_of_shape hshape, hviews]
  rw [schemaOfStatements?, schemaOfStatements?, hname, htables]

end Sql

end Crowfoot
