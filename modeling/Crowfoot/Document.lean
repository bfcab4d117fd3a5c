import Crowfoot.Mermaid.Highlight
import Crowfoot.Mermaid.Schema
import Crowfoot.Mermaid.Writer
import Crowfoot.Sql.Highlight
import Crowfoot.Sql.Schema
import Crowfoot.Sql.Writer

/-!
# Documents

A document is a text in one of the formats. Its format is detected by the header of a diagram or by
the words of a definition; it is read, written and highlighted by the rules of its format.
-/

namespace Crowfoot.Document

/-- The text starts with the header of a diagram, after blanks. -/
def startsWithHeader (text : List Char) : Bool :=
  Text.sameText ((Text.trimStart text).take Mermaid.header.length) Mermaid.header

/-- Pairs of words that show a script. -/
def sqlPhrases : List String :=
  ["CREATE TABLE", "CREATE VIEW", "ALTER TABLE"]

/-- The text in upper case with a single space for every run of blanks. -/
def collapsed (text : List Char) : List Char :=
  [' '].intercalate (Text.words (Text.upper text))

/-- Guesses the format of a text without reading it. -/
def detect? (text : String) : Option Format :=
  if startsWithHeader text.toList then
    some .mermaid
  else if sqlPhrases.any fun phrase => Text.contains phrase.toList (collapsed text.toList) then
    some .sql
  else
    none

/-- Reads a text in a format. -/
def readAs? (config : CategoryConfig) (format : Format) (text : String) : Option Schema :=
  match format with
  | .sql => Sql.readSchema? config text
  | .mermaid => Mermaid.readSchema? config text

/-- The schema, if it has a table. -/
def nonempty? (schema : Option Schema) : Option Schema :=
  schema.filter fun found => !found.tables.isEmpty

/-- Reads a text in the format given, or else in the first format that yields a table; failing that,
in the first that yields a schema. -/
def read? (config : CategoryConfig) (format : Option Format) (text : String) : Option Schema :=
  match format with
  | some format => readAs? config format text
  | none =>
    let sql := readAs? config .sql text
    let mermaid := readAs? config .mermaid text
    (nonempty? sql).or ((nonempty? mermaid).or (sql.or mermaid))

/-- Writes a schema in a format. -/
def writeAs (format : Format) (schema : Schema) : String :=
  match format with
  | .sql => Sql.schemaText schema
  | .mermaid => Mermaid.schemaText schema

/-- Writes a schema in the format given, or else in its own. -/
def write (format : Option Format) (schema : Schema) : String :=
  writeAs (format.getD schema.format) schema

/-- Covers a text with valid and invalid ranges by the rules of the format given, or of the one
detected, or of SQL. -/
def highlight (format : Option Format) (text : String) : List MarkedRange :=
  match (format.or (detect? text)).getD .sql with
  | .sql => Sql.highlight text.toList
  | .mermaid => Mermaid.highlight text.toList

end Crowfoot.Document
