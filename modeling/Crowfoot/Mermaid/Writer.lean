import Crowfoot.Mermaid.Line
import Crowfoot.Schema.Basic
import Crowfoot.Text.Columns

/-!
# Writing diagrams

A schema is written as one block per table and one relationship line per foreign key. Names and
types are made to fit: other characters become underscores.
-/

namespace Crowfoot.Mermaid

/-- The type without blanks; `TEXT` if nothing is left. -/
def fitType (type : List Char) : List Char :=
  match Text.words type with
  | [] => "TEXT".toList
  | words => ['_'].intercalate words

/-- The name as an entity name. -/
def fitName (name : List Char) : List Char :=
  match (Text.trim name).map fun c => if isEntityChar c then c else '_' with
  | [] => ['_']
  | '-' :: rest => '_' :: '-' :: rest
  | fitted => fitted

/-- The entity or attribute name that stands for a name of the schema. -/
def entityName (name : String) : String :=
  String.ofList (fitName name.toList)

/-- The type of a column as an attribute type. -/
def typeName (column : Column) : String :=
  String.ofList (fitType column.type.toList)

/-- The left half of a connection. -/
def leftHalf : Multiplicity → String
  | .one => "||"
  | .zeroOrOne => "|o"
  | .oneOrMany => "\x7d|"
  | .many => "\x7do"
  | .zeroOrMany => "\x7do"

/-- The right half of a connection. -/
def rightHalf : Multiplicity → String
  | .one => "||"
  | .zeroOrOne => "o|"
  | .oneOrMany => "|\x7b"
  | .many => "o\x7b"
  | .zeroOrMany => "o\x7b"

/-- The key marks of a column. -/
def markText (column : Column) : String :=
  ", ".intercalate <|
    (if column.isPrimaryKey then ["PK"] else []) ++
      (if column.isForeignKey then ["FK"] else []) ++
        (if column.isUnique && !column.isPrimaryKey then ["UK"] else [])

/-- An attribute line; types and names are padded to common widths. -/
def attributeText (typeWidth nameWidth : Nat) (column : Column) : String :=
  let type := Text.padTo typeWidth (typeName column)
  let name := entityName column.name
  let marks := markText column
  let line :=
    if marks.isEmpty then type ++ " " ++ name
    else type ++ " " ++ Text.padTo nameWidth name ++ " " ++ marks
  "        " ++ String.ofList (Text.trimEnd line.toList) ++ "\n"

/-- The block of a table; columns that only link a view are left out. -/
def blockText (table : Table) : String :=
  let columns := table.columns.filter fun column => !column.isVirtual
  let typeWidth := Text.widest (columns.map typeName)
  let nameWidth := Text.widest (columns.map fun column => entityName column.name)
  "    " ++ entityName table.name ++ " \x7b\n" ++
    String.join (columns.map (attributeText typeWidth nameWidth)) ++ "    \x7d\n"

/-- A line between two entities, with the name of the key's column as its label. -/
def connectionText (left connection right label : String) : String :=
  "    " ++ left ++ " " ++ connection ++ " " ++ right ++ " : \x22" ++ label ++ "\x22\n"

/-- The line of a foreign key. The key's table goes to the right when its side is many and to the
left when it is single, which is where a reader puts the key; a parent of many on the right would
draw the key over, so it is written as optional. -/
def relationshipText (child : Table) (column : Column) (reference : ColumnReference) : String :=
  let childName := entityName child.name
  let parentName := entityName reference.table
  let label := entityName column.name
  match reference.cardinality with
  | none => connectionText parentName "||--o\x7b" childName label
  | some cardinality =>
    if cardinality.right.isMany then
      connectionText parentName (leftHalf cardinality.left ++ "--" ++ rightHalf cardinality.right)
        childName label
    else
      let parentSide := if cardinality.left.isMany then .zeroOrOne else cardinality.left
      connectionText childName (leftHalf cardinality.right ++ "--" ++ rightHalf parentSide)
        parentName label

/-- The diagram of a schema: all blocks, then all relationship lines. -/
def schemaText (schema : Schema) : String :=
  let relationships := schema.tables.flatMap fun table =>
    table.foreignKeys.map fun (column, reference) => relationshipText table column reference
  "erDiagram\n" ++ String.join (schema.tables.map blockText) ++
    (if relationships.isEmpty then "" else "\n") ++ String.join relationships

end Crowfoot.Mermaid
