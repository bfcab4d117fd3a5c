import Crowfoot.Text.Blank
import Crowfoot.Text.Case
import Crowfoot.Text.Numeral

/-!
# Types of expressions

A view's column that is not taken from a table's column gets a type by the words in its
expression.
-/

namespace Crowfoot.Sql

/-- A type that an expression may have. -/
inductive ExpressionType where
  | integer
  | timestamp
  | decimal
  | text
  deriving DecidableEq, Repr

namespace ExpressionType

/-- The name of the type. -/
def name : ExpressionType → String
  | integer => "INTEGER"
  | timestamp => "TIMESTAMP"
  | decimal => "DECIMAL"
  | text => "TEXT"

/-- Functions that count or add up. -/
def aggregates : List String := ["COUNT", "SUM", "AVG", "MIN", "MAX"]

/-- Functions of time. -/
def timeFunctions : List String :=
  ["NOW", "CURRENT_DATE", "CURRENT_TIMESTAMP", "DATE_TRUNC", "EXTRACT"]

/-- Parts of words that speak of time. -/
def timeParts : List String := ["DATE", "TIME", "_AT"]

/-- Parts of words that speak of amounts. -/
def amountParts : List String :=
  ["PRICE", "AMOUNT", "TOTAL", "COST", "BALANCE", "REVENUE", "RATE", "ROUND"]

/-- The words of an expression in upper case. -/
def wordsOf (expression : List Char) : List (List Char) :=
  ((Text.upper expression).splitOnP fun c => !(Text.isAlphanumeric c || c == '_')).filter
    fun word => !word.isEmpty

/-- The type of an expression, by its words. -/
def ofText (expression : List Char) : ExpressionType :=
  let found := wordsOf expression
  let hasWord (candidates : List String) : Bool :=
    found.any fun word => candidates.any fun candidate => candidate.toList == word
  let hasPart (candidates : List String) : Bool :=
    found.any fun word => candidates.any fun candidate => Text.contains candidate.toList word
  if hasWord aggregates then integer
  else if hasWord timeFunctions || hasPart timeParts then timestamp
  else if hasPart amountParts then decimal
  else text

end ExpressionType

end Crowfoot.Sql
