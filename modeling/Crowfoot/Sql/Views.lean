import Crowfoot.Schema.Table
import Crowfoot.Sql.ExpressionType
import Crowfoot.Sql.Statement

/-!
# Views

The columns of a view are traced back to those they are selected from, as far as the select list
names them. A view is linked to every table it selects from: by a reference that one of its columns
inherits, or else by a column of its own for the link.
-/

namespace Crowfoot.Sql

/-- A view and the tables that its `FROM` clause names. -/
structure ResolvedView where
  table : Table
  mentioned : List String
  deriving Repr

/-- The names that a select list may use. -/
structure Scope where
  /-- The known tables of the `FROM` clause in order. -/
  tables : List Table
  /-- Table names and aliases in lower case; later ones come first. -/
  aliases : List (String × Table)

/-- The names that a `FROM` clause brings into scope. -/
def Scope.ofSources (known : List Table) (sources : List TableMention) : Scope where
  tables := sources.filterMap fun source => findTable? known source.table
  aliases := sources.foldl (fun aliases source =>
    match findTable? known source.table with
    | none => aliases
    | some table =>
      (source.aliasName.toList.map fun aliasName => (Text.lowerCase aliasName, table)) ++
        (Text.lowerCase source.table, table) :: aliases) []

/-- The table under a name or alias. -/
def Scope.table? (scope : Scope) (qualifier : String) : Option Table :=
  scope.aliases.lookup (Text.lowerCase qualifier)

/-- A view's column that is taken from a table's column. It keeps the type, the nullability and the
reference, but it is no key. -/
def deriveColumn (source : Table) (column : Column) (aliasName : Option String) : Column where
  name := aliasName.getD column.name
  type := column.type
  isForeignKey := column.references.isSome
  nullability := column.nullability
  references := column.references.map ({ · with cardinality := none })
  sourceTable := some source.name
  sourceColumn := some column.name

/-- The column of a table under a name, taken into a view. -/
def deriveNamed? (name : String) (aliasName : Option String) (source : Table) : Option Column :=
  (source.column? name).map (deriveColumn source · aliasName)

/-- All columns of a table, taken into a view. -/
def deriveAll (source : Table) : List Column :=
  source.columns.map (deriveColumn source · none)

/-- The columns that an item of a select list gives a view. `position` counts from one. -/
def resolveItem (scope : Scope) (item : SelectItem) (position : Nat) : List Column :=
  let plain (name : String) (text : List Char) : Column :=
    { name := item.aliasName.getD name, type := (ExpressionType.ofText text).name }
  match item.expression with
  | .everything => (scope.tables.head?.map deriveAll).getD []
  | .everythingOf qualifier => ((scope.table? qualifier).map deriveAll).getD []
  | .column (some qualifier) name =>
    let found := (scope.table? qualifier).bind (deriveNamed? name item.aliasName)
    [found.getD (plain name name.toList)]
  | .column none name =>
    let found := scope.tables.findSome? (deriveNamed? name item.aliasName)
    [found.getD (plain name name.toList)]
  | .computed text => [plain ("column_" ++ toString position) text]

/-- The columns of a view nothing is known of. -/
def placeholderColumns : List Column :=
  [{ name := "id", type := "INTEGER" }, { name := "name", type := "TEXT" },
    { name := "value", type := "TEXT" }]

/-- Resolves a view against the tables known so far. -/
def resolveView (known : List Table) (definition : ViewDefinition) : ResolvedView :=
  let scope := Scope.ofSources known definition.sources
  let columns := definition.items.zipIdx.flatMap fun (item, index) =>
    resolveItem scope item (index + 1)
  let view : Table := columns.foldl Table.upsertColumn { name := definition.name, isView := true }
  { table := if view.columns.isEmpty then { view with columns := placeholderColumns } else view
    mentioned := (scope.tables.map Table.name).eraseDups }

/-- The view definitions of a script. -/
def viewDefinitions (statements : List Statement) : List ViewDefinition :=
  statements.filterMap fun statement =>
    match statement with
    | .createView definition => some definition
    | _ => none

/-- Adds a view to those read before it. One that is named like a table is dropped; one that is
named like an earlier view takes its place. -/
def addView (tables : List Table) (views : List ResolvedView) (definition : ViewDefinition) :
    List ResolvedView :=
  if (findTable? tables definition.name).isSome then
    views
  else
    putFirst (fun old => Text.sameName old.table.name definition.name)
      (resolveView (tables ++ views.map ResolvedView.table) definition) views

/-- The views of a script. -/
def resolveViews (statements : List Statement) (tables : List Table) : List ResolvedView :=
  (viewDefinitions statements).foldl (addView tables) []

/-- The column that a link to a table points at. -/
def linkTarget? (table : Table) : Option Column :=
  table.primaryKey?.or table.columns.head?

/-- Gives a view a column that links it to a mentioned table, unless some column refers to that
table already or the name of the linking column is taken. -/
def linkMentioned (known : List Table) (view : Table) (mentioned : String) : Table :=
  let linked := view.columns.any fun column =>
    column.references.any fun reference => Text.sameName reference.table mentioned
  if linked then
    view
  else
    match findTable? known mentioned with
    | none => view
    | some table =>
      match linkTarget? table with
      | none => view
      | some target =>
        let name := Column.linkMark ++ table.name
        if (view.column? name).isSome then
          view
        else
          let link : Column := { name, type := "INTEGER" }
          { view with columns := view.columns ++ [link.referTo table.name target.name] }

/-- The word in front of `_name` at the end of a column's name, in lower case. -/
def namedWord? (name : String) : Option String :=
  let reversed := (Text.lower name.toList).reverse
  let ending := "_name".toList.reverse
  if ending.isPrefixOf reversed && ending.length < reversed.length then
    some (String.ofList (reversed.drop ending.length).reverse)
  else
    none

/-- Points a column `<word>_name` without a reference at the primary key of a base table that is
named `word` or `words`. -/
def linkNamed (known : List Table) (column : Column) : Column :=
  if column.references.isSome then
    column
  else
    let target? : Option (Table × Column) := do
      let word ← namedWord? column.name
      let table ← known.find? fun table =>
        !table.isView && (Text.sameName table.name word || Text.sameName table.name (word ++ "s"))
      let key ← table.primaryKey?
      return (table, key)
    match target? with
    | some (table, key) => column.referTo table.name key.name
    | none => column

/-- Links a view to the tables it mentions and to those its column names mean. -/
def linkView (known : List Table) (view : ResolvedView) : Table :=
  let linked := view.mentioned.foldl (linkMentioned known) view.table
  { linked with columns := linked.columns.map (linkNamed known) }

/-- Links all views. -/
def linkViews (tables : List Table) (views : List ResolvedView) : List Table :=
  views.map (linkView (tables ++ views.map ResolvedView.table))

end Crowfoot.Sql
