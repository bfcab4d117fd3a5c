import Crowfoot.Highlight.Range
import Crowfoot.Sql.Reader

/-!
# Highlighting SQL

A statement is marked valid when it has the shape of a table or view definition or of a change to a
table. What stands between statements is valid, and so are lone semicolons.
-/

namespace Crowfoot.Sql

/-- The lexemes go on as `CREATE TABLE` does: a name and a closed group. -/
def hasTableShape (lexemes : List Lexeme) : Bool :=
  match readQualifiedName? (skipIfNotExists lexemes) with
  | some (_, rest) => (readGroup? rest).isSome
  | none => false

/-- The lexemes go on as `CREATE VIEW` does: a name, `SELECT` and a later `FROM`. -/
def hasViewShape (lexemes : List Lexeme) : Bool :=
  match readQualifiedName? (skipIfNotExists lexemes) with
  | none => false
  | some (_, rest) =>
    match expectKeyword? .select (skipKeyword .as (skipOptionalGroup rest)) with
    | none => false
    | some list => startsWith (.keyword .fromClause) (readUntil (· = .keyword .fromClause) 0 list).2

/-- The lexemes go on as `CREATE` does. -/
def hasCreateShape (lexemes : List Lexeme) : Bool :=
  match readCreateOptions? lexemes with
  | none => false
  | some [] => false
  | some (lexeme :: rest) =>
    match lexeme.token with
    | .keyword .table => hasTableShape rest
    | .keyword .view => hasViewShape rest
    | _ => false

/-- The lexemes go on as `ALTER TABLE` does: a name and something to do. -/
def hasAlterShape (lexemes : List Lexeme) : Bool :=
  match expectKeyword? .table lexemes with
  | none => false
  | some rest =>
    match readQualifiedName? (skipAlterOptions rest) with
    | none => false
    | some (_, actions) => !actions.isEmpty && !startsWith .semicolon actions

/-- The statement has one of the recognised shapes. -/
def hasStatementShape : List Lexeme → Bool
  | [] => false
  | lexeme :: rest =>
    match lexeme.token with
    | .keyword .create => hasCreateShape rest
    | .keyword .alter => hasAlterShape rest
    | _ => false

/-- The marked range of a statement, unless it is made of semicolons alone. -/
def statementBlock? (lexemes : List Lexeme) : Option MarkedRange :=
  if lexemes.all fun lexeme => lexeme.token = .semicolon then
    none
  else do
    let first ← lexemes.head?
    let last ← lexemes.getLast?
    return ⟨first.start, last.stop, hasStatementShape lexemes⟩

/-- Covers a script with valid and invalid ranges. -/
def highlight (text : List Char) : List MarkedRange :=
  MarkedRange.partition (Text.byteLength text) ((scriptStatements text).filterMap statementBlock?)

end Crowfoot.Sql
