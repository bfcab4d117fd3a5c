import Crowfoot.Mermaid.Line
import Crowfoot.Schema.Table

/-!
# Diagrams

The entities of a diagram in the order in which they first appear, with the attributes of all their
blocks, and the relationship lines. A line that cannot be read is passed over.
-/

namespace Crowfoot.Mermaid

/-- The contents of a diagram. -/
structure Diagram where
  tables : List Table := []
  relationships : List Relationship := []
  deriving Repr

/-- The column that an attribute describes. Its foreign-key mark is settled by the relationships. -/
def Attribute.toColumn (entry : Attribute) : Column :=
  let column : Column :=
    { name := entry.name
      type := Text.upperCase entry.type
      isUnique := entry.isUnique
      isForeignKey := entry.isForeignKey }
  if entry.isPrimaryKey then column.asPrimaryKey else column

namespace Diagram

/-- Adds an entity unless it is there. -/
def ensureTable (diagram : Diagram) (name : String) : Diagram :=
  if diagram.tables.any (·.name == name) then
    diagram
  else
    { diagram with tables := diagram.tables ++ [{ name }] }

/-- Adds an attribute to an entity, if the text is one. -/
def addAttribute (diagram : Diagram) (name : String) (text : List Char) : Diagram :=
  match readAttribute? text with
  | none => diagram
  | some entry =>
    { diagram with
      tables := modifyFirst (·.name == name) (·.upsertColumn entry.toColumn) diagram.tables }

/-- Adds a relationship and its entities. -/
def addRelationship (diagram : Diagram) (relationship : Relationship) : Diagram :=
  let named := (diagram.ensureTable relationship.left).ensureTable relationship.right
  { named with relationships := named.relationships ++ [relationship] }

end Diagram

/-- A diagram being read: its contents so far and the entity whose block is open. -/
structure Scan where
  diagram : Diagram := {}
  block : Option String := none
  deriving Repr

/-- Reads the attribute text of a block's line; a closing brace ends the block. -/
def Scan.inBlock (scan : Scan) (name : String) (text : List Char) : Scan :=
  let (body, closes) := cutClosingBrace text
  { diagram := scan.diagram.addAttribute name body
    block := if closes then none else some name }

/-- Reads a line after the header. -/
def Scan.step (scan : Scan) (text : List Char) : Scan :=
  match scan.block with
  | some name => scan.inBlock name text
  | none =>
    match readRelationship? text with
    | some relationship => { scan with diagram := scan.diagram.addRelationship relationship }
    | none =>
      match readBlockStart? text with
      | some (name, rest) =>
        { scan with diagram := scan.diagram.ensureTable name }.inBlock name rest
      | none => scan

/-- Reads a diagram. The first line that counts has to be the header. -/
def Diagram.ofText? (text : List Char) : Option Diagram :=
  match Line.ofText text with
  | [] => none
  | first :: rest =>
    if isHeader first.text then
      some (rest.foldl (fun scan line => scan.step line.text) ({} : Scan)).diagram
    else
      none

end Crowfoot.Mermaid
