import Crowfoot.Schema.Lookup
import Crowfoot.Sql.ColumnDefinition

/-!
# Table clauses

The clauses of `CREATE TABLE (…)` and of `ALTER TABLE … ADD`: columns and key constraints. A clause
that says nothing about columns or keys reads as nothing.
-/

namespace Crowfoot.Sql

/-- Leaves out the storage order of a key. -/
def skipClustering (lexemes : List Lexeme) : List Lexeme :=
  skipOneOf ["CLUSTERED", "NONCLUSTERED"] lexemes

/-- Pairs the columns of a key with those it refers to. -/
def pairForeignKeys (target : String) : List String → List String → List ForeignKey
  | [], _ => []
  | column :: columns, targets =>
    ⟨column, target, targets.head?⟩ :: pairForeignKeys target columns targets.tail

/-- Reads `KEY (…) REFERENCES table [(…)]`. -/
def readForeignKeys? (lexemes : List Lexeme) : Option (List ForeignKey) := do
  let afterKey ← expectKeyword? .key lexemes
  let (columns, afterColumns) := readNameList afterKey
  let afterReferences ← expectKeyword? .references afterColumns
  let (target, afterTarget) ← readQualifiedName? afterReferences
  return pairForeignKeys target columns (readNameList afterTarget).1

/-- Reads `KEY [CLUSTERED] (…)` after `PRIMARY`. -/
def readPrimaryKey? (lexemes : List Lexeme) : Option Clause :=
  (expectKeyword? .key lexemes).map fun rest => .primaryKey (readNameList (skipClustering rest)).1

/-- Reads `[KEY | INDEX] [CLUSTERED] [name] (…)` after `UNIQUE`. -/
def readUnique (lexemes : List Lexeme) : Clause :=
  let rest := skipClustering (skipWhen (fun token =>
    token = .keyword .key || token = .keyword .index) lexemes)
  .unique (readNameList (if startsWith .leftParen rest then rest else skipName rest)).1

/-- What a clause turns out to be. -/
inductive ClauseReading where
  /-- A key constraint. -/
  | key (clause : Clause)
  /-- A constraint of no interest, or a malformed one. -/
  | nothing
  /-- No constraint: the lexemes should be a column definition. -/
  | definition (lexemes : List Lexeme)

/-- Tells key constraints, with or without a name, from column definitions. -/
def readKeyClause (lexemes : List Lexeme) : ClauseReading :=
  let named := expectKeyword? .constraint lexemes
  let body := (named.map skipName).getD lexemes
  match body with
  | [] => if named.isSome then .nothing else .definition []
  | lexeme :: rest =>
    match lexeme.token with
    | .keyword .primary => (readPrimaryKey? rest).elim .nothing .key
    | .keyword .unique => .key (readUnique rest)
    | .keyword .foreign =>
      (readForeignKeys? rest).elim .nothing fun keys => .key (.foreignKeys keys)
    | .keyword .check | .keyword .index | .keyword .key => .nothing
    | _ => if named.isSome then .nothing else .definition body

/-- Reads a column definition as a clause. -/
def readColumnClause? (lexemes : List Lexeme) : Option Clause :=
  (readColumn? lexemes).map fun draft => .column draft.column draft.foreignKey

/-- Words that start an index or an exclusion in a table definition. -/
def indexWords : List String :=
  ["FULLTEXT", "SPATIAL", "EXCLUDE"]

/-- Reads a clause of a table definition. -/
def readTableClause? (lexemes : List Lexeme) : Option Clause :=
  match readKeyClause lexemes with
  | .key clause => some clause
  | .nothing => none
  | .definition body =>
    if body.head?.any fun lexeme => lexeme.token.isOneOf indexWords then
      none
    else
      readColumnClause? body

/-- Reads an action of `ALTER TABLE`, if it adds anything. -/
def readAddition? (lexemes : List Lexeme) : Option Clause := do
  let added ← expectKeyword? .add lexemes
  match readKeyClause added with
  | .key clause => some clause
  | .nothing => none
  | .definition body => readColumnClause? (skipIfNotExists (skipKeyword .column body))

namespace Clause

/-- Puts the column of a clause, if it is one, among those collected before it. -/
def collectColumn (columns : List Column) : Clause → List Column
  | .column declared _ =>
    putFirst (fun old => Text.sameName old.name declared.name) declared columns
  | _ => columns

/-- The foreign keys that a clause declares. -/
def declaredKeys : Clause → List ForeignKey
  | .column _ foreignKey => foreignKey.toList
  | .foreignKeys keys => keys
  | _ => []

/-- The columns that a clause makes a primary key. -/
def primaryNames : Clause → List String
  | .primaryKey names => names
  | _ => []

/-- The column that a clause makes unique; uniqueness of several columns says nothing of a single
one. -/
def uniqueNames : Clause → List String
  | .unique [name] => [name]
  | _ => []

end Clause

/-- Marks a column that is named in key constraints. -/
def markKeys (primaryKeys uniqueKeys : List String) (column : Column) : Column :=
  let marked :=
    if primaryKeys.any (Text.sameName · column.name) then column.asPrimaryKey else column
  if uniqueKeys.any (Text.sameName · column.name) then marked.asUnique else marked

/-- The table that clauses define. Keys take effect on the columns once all clauses are read. -/
def TableDefinition.ofClauses (name : String) (clauses : List Clause) : TableDefinition where
  name
  columns := (clauses.foldl Clause.collectColumn []).map <|
    markKeys (clauses.flatMap Clause.primaryNames) (clauses.flatMap Clause.uniqueNames)
  foreignKeys := clauses.flatMap Clause.declaredKeys

/-- Reads `[IF NOT EXISTS] name (…)` after `CREATE TABLE`. -/
def readTable? (lexemes : List Lexeme) : Option TableDefinition := do
  let (name, afterName) ← readQualifiedName? (skipIfNotExists lexemes)
  let (body, _) ← readGroup? afterName
  return .ofClauses name ((splitCommas body).filterMap readTableClause?)

/-- Leaves out a semicolon at the end. -/
def dropFinalSemicolon (lexemes : List Lexeme) : List Lexeme :=
  if lexemes.getLast?.any fun lexeme => lexeme.token = .semicolon then
    lexemes.dropLast
  else
    lexemes

/-- Leaves out `[ONLY] [IF [EXISTS]] [ONLY]` in front of the name of an altered table. -/
def skipAlterOptions (lexemes : List Lexeme) : List Lexeme :=
  let afterOnly := skipKeyword .only lexemes
  let afterIf :=
    match expectKeyword? .ifClause afterOnly with
    | some rest => skipKeyword .existsClause rest
    | none => afterOnly
  skipKeyword .only afterIf

/-- Reads `TABLE name action, …` after `ALTER`; there has to be something after the name. -/
def readAlteration? (lexemes : List Lexeme) : Option Alteration := do
  let afterTable ← expectKeyword? .table lexemes
  let (table, rest) ← readQualifiedName? (skipAlterOptions afterTable)
  let actions := dropFinalSemicolon rest
  if actions.isEmpty then
    none
  else
    some ⟨table, (splitCommas actions).filterMap readAddition?⟩

end Crowfoot.Sql
