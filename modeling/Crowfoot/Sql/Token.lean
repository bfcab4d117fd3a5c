import Crowfoot.Text.Case
import Crowfoot.Text.Caseless
import Crowfoot.Text.Offset

/-!
# SQL tokens

Keywords, names, literals and symbols. A word is a keyword when its upper case spells one; a quoted
name never is.
-/

namespace Crowfoot.Sql

/-- The words with a meaning of their own in data definitions. -/
inductive Keyword where
  | create
  | alter
  | add
  | table
  | view
  | or
  | replace
  | as
  | select
  | fromClause
  | join
  | column
  | only
  | primary
  | key
  | foreign
  | references
  | not
  | null
  | unique
  | default
  | on
  | constraint
  | index
  | ifClause
  | existsClause
  | identity
  | check
  | distinct
  | whereClause
  | group
  | order
  | having
  | limit
  | union
  deriving DecidableEq, Repr

namespace Keyword

/-- The spelling of a keyword. -/
def spelling : Keyword → String
  | create => "CREATE"
  | alter => "ALTER"
  | add => "ADD"
  | table => "TABLE"
  | view => "VIEW"
  | or => "OR"
  | replace => "REPLACE"
  | as => "AS"
  | select => "SELECT"
  | fromClause => "FROM"
  | join => "JOIN"
  | column => "COLUMN"
  | only => "ONLY"
  | primary => "PRIMARY"
  | key => "KEY"
  | foreign => "FOREIGN"
  | references => "REFERENCES"
  | not => "NOT"
  | null => "NULL"
  | unique => "UNIQUE"
  | default => "DEFAULT"
  | on => "ON"
  | constraint => "CONSTRAINT"
  | index => "INDEX"
  | ifClause => "IF"
  | existsClause => "EXISTS"
  | identity => "IDENTITY"
  | check => "CHECK"
  | distinct => "DISTINCT"
  | whereClause => "WHERE"
  | group => "GROUP"
  | order => "ORDER"
  | having => "HAVING"
  | limit => "LIMIT"
  | union => "UNION"

/-- Every keyword. -/
def all : List Keyword :=
  [create, alter, add, table, view, or, replace, as, select, fromClause, join, column, only,
    primary, key, foreign, references, not, null, unique, default, on, constraint, index, ifClause,
    existsClause, identity, check, distinct, whereClause, group, order, having, limit, union]

/-- The keyword that a word spells in any case. -/
def ofWord? (word : List Char) : Option Keyword :=
  let spelled := Text.upper word
  all.find? fun keyword => keyword.spelling.toList == spelled

/-- Keywords that may also serve as plain names. -/
def isSoft : Keyword → Bool
  | column | view | replace | only | order | group | limit | key | index | identity => true
  | _ => false

theorem mem_all (keyword : Keyword) : keyword ∈ all := by
  cases keyword <;> decide

/-- A word is a keyword exactly when its upper case is the spelling. -/
theorem spelling_of_ofWord? {word : List Char} {keyword : Keyword}
    (hfound : ofWord? word = some keyword) : Text.upper word = keyword.spelling.toList := by
  have := List.find?_some hfound
  simpa using (beq_iff_eq.1 this).symm

end Keyword

/-- A token of SQL text. -/
inductive Token where
  | keyword (keyword : Keyword)
  /-- A bare word that is no keyword. -/
  | word (name : List Char)
  /-- A name in double quotes, backticks or square brackets. -/
  | quoted (name : List Char)
  /-- A literal in single quotes. -/
  | string (content : List Char)
  | number (digits : List Char)
  | leftParen
  | rightParen
  | comma
  | semicolon
  | dot
  | star
  /-- Any other character. -/
  | symbol (char : Char)
  /-- The end of the text. -/
  | eof
  deriving DecidableEq, Repr

/-- The token is the given bare word, in any ASCII case. -/
def Token.isWord (expected : String) : Token → Bool
  | .word name => Text.sameText name expected.toList
  | _ => false

/-- The token is one of the given bare words, in any ASCII case. -/
def Token.isOneOf (expected : List String) (token : Token) : Bool :=
  expected.any token.isWord

/-- A token with its source text and what stood before it. -/
structure Lexeme where
  /-- The blanks and comments between the token before and this one. -/
  gap : List Char
  token : Token
  /-- The source text of the token. -/
  text : List Char
  /-- The byte offset at which the token starts. -/
  start : Nat
  deriving DecidableEq, Repr

namespace Lexeme

/-- The byte offset at which the token ends. -/
def stop (lexeme : Lexeme) : Nat :=
  lexeme.start + Text.byteLength lexeme.text

/-- The name that a token spells: a bare word, a quoted name that is not empty, or a keyword that
may serve as a name. -/
def name? (lexeme : Lexeme) : Option String :=
  match lexeme.token with
  | .word name => some (String.ofList name)
  | .quoted name => if name.isEmpty then none else some (String.ofList name)
  | .keyword keyword => if keyword.isSoft then some (String.ofList lexeme.text) else none
  | _ => none

/-- The source text from the first token to the last, with the gaps between them. -/
def sourceText : List Lexeme → List Char
  | [] => []
  | first :: rest => first.text ++ rest.flatMap fun lexeme => lexeme.gap ++ lexeme.text

end Lexeme

end Crowfoot.Sql
