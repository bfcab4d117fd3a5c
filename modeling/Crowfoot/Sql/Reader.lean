import Crowfoot.Sql.Select
import Crowfoot.Sql.TableClause

/-!
# Reading statements

A statement reads as a definition, or as nothing when it is malformed or of no interest. The
statements of a script are read one by one.
-/

namespace Crowfoot.Sql

/-- Words that may stand between `CREATE` and `TABLE` or `VIEW`. -/
def createModifiers : List String :=
  ["TEMP", "TEMPORARY", "GLOBAL", "LOCAL", "UNLOGGED", "MATERIALIZED", "RECURSIVE"]

/-- Leaves out the modifiers of `CREATE`. -/
def skipCreateModifiers (lexemes : List Lexeme) : List Lexeme :=
  lexemes.dropWhile fun lexeme => lexeme.token.isOneOf createModifiers

/-- Leaves out `[OR REPLACE]` and modifiers after `CREATE`; `OR` asks for `REPLACE`. -/
def readCreateOptions? (lexemes : List Lexeme) : Option (List Lexeme) :=
  match expectKeyword? .or lexemes with
  | some rest => (expectKeyword? .replace rest).map skipCreateModifiers
  | none => some (skipCreateModifiers lexemes)

/-- Reads the name of a schema or database. -/
def readSchemaName? (lexemes : List Lexeme) : Option Statement :=
  (readQualifiedName? lexemes).map fun (name, _) => .nameSchema name

/-- Reads what follows `CREATE`. -/
def readCreation? (lexemes : List Lexeme) : Option Statement := do
  match ← readCreateOptions? lexemes with
  | [] => none
  | lexeme :: rest =>
    match lexeme.token with
    | .keyword .table => (readTable? rest).map .createTable
    | .keyword .view => (readView? rest).map .createView
    | token =>
      if token.isOneOf ["SCHEMA", "DATABASE"] then readSchemaName? (skipIfNotExists rest) else none

/-- Reads a statement. -/
def Statement.ofLexemes? : List Lexeme → Option Statement
  | [] => none
  | lexeme :: rest =>
    match lexeme.token with
    | .keyword .create => readCreation? rest
    | .keyword .alter => (readAlteration? rest).map .alterTable
    | token => if token.isWord "USE" then readSchemaName? rest else none

/-- Reads the statements of a script. -/
def Statement.ofScript (text : List Char) : List Statement :=
  (scriptStatements text).filterMap ofLexemes?

end Crowfoot.Sql
