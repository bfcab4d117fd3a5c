import Crowfoot.Text.Blank
import Crowfoot.Text.Caseless
import Crowfoot.Text.Lines

/-!
# Batches

A line that holds the word `GO` alone separates two batches of statements. It is read as a semicolon
of the same length, so that offsets stay what they are.
-/

namespace Crowfoot.Sql

/-- Writes a semicolon over the word `GO` of a line that holds nothing else. -/
def separateBatch (line : List Char) : List Char :=
  match line.dropWhile Text.isBlank with
  | first :: second :: rest =>
    if Text.sameText [first, second] ['g', 'o'] && rest.all Text.isBlank then
      line.takeWhile Text.isBlank ++ ';' :: ' ' :: rest
    else
      line
  | _ => line

/-- Writes a semicolon over every batch separator. -/
def separateBatches (text : List Char) : List Char :=
  (Text.linesOf text).flatMap separateBatch

end Crowfoot.Sql
