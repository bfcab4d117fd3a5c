import Crowfoot.Json.Reader
import Crowfoot.Json.Record
import Crowfoot.Json.Writer
import Crowfoot.Schema.Basic

/-!
# Schemas as JSON

Every part of a schema is an object whose keys come in a fixed order; references, sources and
cardinalities are left out where there are none. What is left out in reading takes its usual value,
except names, types, formats and lists.
-/

namespace Crowfoot

open Json

/-- The written form of a nullability. -/
def Nullability.name : Nullability → String
  | .notNull => "notNull"
  | .nullable => "nullable"
  | .unknown => "unknown"

/-- The nullability with a name. -/
def Nullability.ofName? (name : String) : Option Nullability :=
  [notNull, nullable, unknown].find? fun nullability => nullability.name == name

/-- The format with exactly this name. -/
def Format.ofExactName? (name : String) : Option Format :=
  [sql, mermaid].find? fun format => format.name == name

/-- A member of an object that is left out if it has no value. -/
def optionalMember {α : Type} (key : String) (encode : α → Value) (value : Option α) :
    List (String × Value) :=
  (value.map fun present => (key, encode present)).toList

namespace ColumnReference

/-- The keys of a reference. -/
def keys : List String := ["table", "column", "cardinality"]

/-- A reference as a value. -/
def toValue (reference : ColumnReference) : Value :=
  .record <|
    [("table", .text reference.table), ("column", .text reference.column)] ++
      optionalMember "cardinality" (fun cardinality => .text cardinality.text) reference.cardinality

/-- The reference that a value stands for. -/
def ofValue? (value : Value) : Option ColumnReference := do
  match ← value.fields? keys with
  | [table, column, cardinality] =>
    return {
      table := ← required? Value.string? table
      column := ← required? Value.string? column
      cardinality := ← optional? (fun value => value.string?.bind Cardinality.ofText?) cardinality }
  | _ => none

end ColumnReference

namespace Column

/-- The keys of a column. -/
def keys : List String :=
  ["name", "type", "isPrimaryKey", "isUnique", "isForeignKey", "nullability", "references",
    "sourceTable", "sourceColumn"]

/-- A column as a value. -/
def toValue (column : Column) : Value :=
  .record <|
    [("name", .text column.name), ("type", .text column.type),
        ("isPrimaryKey", .bool column.isPrimaryKey), ("isUnique", .bool column.isUnique),
        ("isForeignKey", .bool column.isForeignKey),
        ("nullability", .text column.nullability.name)] ++
      optionalMember "references" ColumnReference.toValue column.references ++
        optionalMember "sourceTable" .text column.sourceTable ++
          optionalMember "sourceColumn" .text column.sourceColumn

/-- The column that a value stands for. -/
def ofValue? (value : Value) : Option Column := do
  match ← value.fields? keys with
  | [name, type, isPrimaryKey, isUnique, isForeignKey, nullability, references, sourceTable,
      sourceColumn] =>
    return {
      name := ← required? Value.string? name
      type := ← required? Value.string? type
      isPrimaryKey := ← defaulted? false Value.bool? isPrimaryKey
      isUnique := ← defaulted? false Value.bool? isUnique
      isForeignKey := ← defaulted? false Value.bool? isForeignKey
      nullability := ← defaulted? .unknown (fun value => value.case?.bind Nullability.ofName?)
        nullability
      references := ← optional? ColumnReference.ofValue? references
      sourceTable := ← optional? Value.string? sourceTable
      sourceColumn := ← optional? Value.string? sourceColumn }
  | _ => none

end Column

namespace Point

/-- A point as the list of its coordinates. -/
def toValue (point : Point) : Value :=
  .array [.ofFloat point.x, .ofFloat point.y, .ofFloat point.z]

/-- The point that a list of three numbers stands for. -/
def ofValue? : Value → Option Point
  | .array [x, y, z] => do return ⟨← x.float?, ← y.float?, ← z.float?⟩
  | _ => none

end Point

namespace Table

/-- The keys of a table. -/
def keys : List String := ["name", "columns", "position", "color", "category", "isView"]

/-- A table as a value. -/
def toValue (table : Table) : Value :=
  .record
    [("name", .text table.name), ("columns", .array (table.columns.map Column.toValue)),
      ("position", table.position.toValue), ("color", .text table.color),
      ("category", .text table.category), ("isView", .bool table.isView)]

/-- The table that a value stands for. -/
def ofValue? (value : Value) : Option Table := do
  match ← value.fields? keys with
  | [name, columns, position, color, category, isView] =>
    return {
      name := ← required? Value.string? name
      columns := ← required? (Value.list? Column.ofValue?) columns
      position := ← defaulted? Point.origin Point.ofValue? position
      color := ← defaulted? "" Value.string? color
      category := ← defaulted? "" Value.string? category
      isView := ← defaulted? false Value.bool? isView }
  | _ => none

end Table

namespace Schema

/-- The keys of a schema. -/
def keys : List String := ["name", "format", "tables"]

/-- A schema as a value. -/
def toValue (schema : Schema) : Value :=
  .record
    [("name", .text schema.name), ("format", .text schema.format.name),
      ("tables", .array (schema.tables.map Table.toValue))]

/-- The schema that a value stands for. -/
def ofValue? (value : Value) : Option Schema := do
  match ← value.fields? keys with
  | [name, format, tables] =>
    return {
      name := ← required? Value.string? name
      format := ← required? (fun value => value.case?.bind Format.ofExactName?) format
      tables := ← required? (Value.list? Table.ofValue?) tables }
  | _ => none

/-- The compact JSON text of a schema. -/
def toJson (schema : Schema) : String :=
  schema.toValue.compact

/-- The schema that a JSON text stands for. -/
def ofJson? (text : String) : Option Schema :=
  (Value.ofText? text).bind ofValue?

end Schema

end Crowfoot
