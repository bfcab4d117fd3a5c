import Crowfoot.Highlight.Range
import Crowfoot.Mermaid.Line

/-!
# Highlighting diagrams

Every line that counts is valid or not, by what the lines before it have begun.
-/

namespace Crowfoot.Mermaid

/-- Where in a diagram a line stands. -/
inductive LinePlace where
  | beforeHeader
  | topLevel
  | inBlock
  deriving DecidableEq, Repr

/-- The text is an attribute or empty. -/
def isAttributeText (text : List Char) : Bool :=
  text.isEmpty || (readAttribute? text).isSome

/-- Judges the attribute text of a block's line: its validity, and the place after it. -/
def judgeBlockText (text : List Char) : Bool × LinePlace :=
  let (body, closes) := cutClosingBrace text
  (isAttributeText body, if closes then .topLevel else .inBlock)

/-- Judges a line: its validity, and the place after it. -/
def judgeLine (place : LinePlace) (text : List Char) : Bool × LinePlace :=
  match place with
  | .beforeHeader => if isHeader text then (true, .topLevel) else (false, .beforeHeader)
  | .inBlock => judgeBlockText text
  | .topLevel =>
    if (readRelationship? text).isSome then
      (true, .topLevel)
    else
      match readBlockStart? text with
      | some (_, rest) => judgeBlockText rest
      | none => (false, .topLevel)

/-- The marked ranges of lines from a place on. -/
def lineBlocks (place : LinePlace) : List Line → List MarkedRange
  | [] => []
  | line :: rest =>
    let (isValid, next) := judgeLine place line.text
    ⟨line.start, line.stop, isValid⟩ :: lineBlocks next rest

/-- Covers a diagram with valid and invalid ranges. -/
def highlight (text : List Char) : List MarkedRange :=
  MarkedRange.partition (Text.byteLength text) (lineBlocks .beforeHeader (Line.ofText text))

end Crowfoot.Mermaid
