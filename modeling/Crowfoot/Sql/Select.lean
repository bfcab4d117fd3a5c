import Crowfoot.Sql.Phrase
import Crowfoot.Sql.Statement

/-!
# Select statements of views

A view is read from its select list and its `FROM` clause. Items that are no plain columns are kept
as source text, and conditions, joins and derived tables are passed over.
-/

namespace Crowfoot.Sql

/-- Words that cannot be the alias of a table: they go on with a join. -/
def joinWords : List String :=
  ["LEFT", "RIGHT", "INNER", "OUTER", "FULL", "CROSS", "NATURAL", "USING", "LATERAL", "WITH"]

/-- Words that end a `FROM` clause. -/
def fromEndings : List String :=
  ["OFFSET", "FETCH", "WINDOW", "QUALIFY", "EXCEPT", "INTERSECT"]

/-- The token ends a `FROM` clause. -/
def Token.endsFrom : Token → Bool
  | .keyword found =>
    match found with
    | .whereClause | .group | .order | .having | .limit | .union => true
    | _ => false
  | .semicolon => true
  | token => token.isOneOf fromEndings

/-- The token may be an alias without `AS`. -/
def Token.mayBeAlias : Token → Bool
  | .word name => !Text.sameText name "END".toList
  | .quoted _ => true
  | _ => false

/-- The token may end a value. -/
def Token.endsValue : Token → Bool
  | .word _ | .quoted _ | .rightParen | .number _ | .string _ => true
  | _ => false

/-- Splits `expression [AS] alias`. -/
def splitAlias (lexemes : List Lexeme) : List Lexeme × Option String :=
  match lexemes.reverse with
  | last :: before :: rest =>
    let plain :=
      if last.token.mayBeAlias && before.token.endsValue then
        ((before :: rest).reverse, last.name?)
      else
        (lexemes, none)
    if before.token = .keyword .as ∧ !rest.isEmpty then
      match last.name? with
      | some aliasName => (rest.reverse, some aliasName)
      | none => plain
    else
      plain
  | _ => (lexemes, none)

/-- Reads an expression: a star, a column with up to two qualifiers, or anything else. -/
def SelectExpression.ofLexemes (lexemes : List Lexeme) : SelectExpression :=
  let computed : SelectExpression := .computed (Lexeme.sourceText lexemes)
  match lexemes with
  | [only] =>
    if only.token = .star then .everything
    else (only.name?.map (.column none)).getD computed
  | [qualifier, dot, last] =>
    if dot.token ≠ .dot then
      computed
    else if last.token = .star then
      (qualifier.name?.map .everythingOf).getD computed
    else
      match qualifier.name?, last.name? with
      | some table, some name => .column (some table) name
      | _, _ => computed
  | [_, firstDot, qualifier, secondDot, last] =>
    if firstDot.token = .dot ∧ secondDot.token = .dot then
      match qualifier.name?, last.name? with
      | some table, some name => .column (some table) name
      | _, _ => computed
    else
      computed
  | _ => computed

/-- Reads an item of a select list. -/
def SelectItem.ofLexemes (lexemes : List Lexeme) : SelectItem :=
  let (expression, aliasName) := splitAlias lexemes
  ⟨.ofLexemes expression, aliasName⟩

/-- Reads the alias of a table, if there is one. -/
def readTableAlias (lexemes : List Lexeme) : Option String × List Lexeme :=
  let named (lexemes : List Lexeme) : Option String × List Lexeme :=
    match readName? lexemes with
    | some (name, rest) => (some name, rest)
    | none => (none, lexemes)
  match expectKeyword? .as lexemes with
  | some rest => named rest
  | none =>
    let mayFollow : Token → Bool
      | .word name => !Token.isOneOf joinWords (.word name)
      | .quoted _ => true
      | _ => false
    if lexemes.head?.any fun lexeme => mayFollow lexeme.token then
      named lexemes
    else
      (none, lexemes)

theorem readTableAlias_length_le (lexemes : List Lexeme) :
    (readTableAlias lexemes).2.length ≤ lexemes.length := by
  have hnamed (list : List Lexeme) :
      (match readName? list with
        | some (name, rest) => (some name, rest)
        | none => ((none : Option String), list)).2.length ≤ list.length := by
    split
    · rename_i hread
      exact Nat.le_of_lt (readName?_length hread)
    · exact Nat.le_refl _
  unfold readTableAlias
  simp only
  split
  · rename_i rest hread
    exact Nat.le_trans (hnamed rest) (Nat.le_of_lt (expect?_length hread))
  · split
    · exact hnamed lexemes
    · exact Nat.le_refl _

/-- Reads the tables of a `FROM` clause. A table is expected at the start and after each comma and
`JOIN`; a group is a derived table or a condition and names none. -/
def readTables (expectTable : Bool) (lexemes : List Lexeme) : List TableMention :=
  match lexemes with
  | [] => []
  | lexeme :: rest =>
    if lexeme.token = .leftParen then
      readTables false (skipGroup (lexeme :: rest))
    else if expectTable then
      match _hname : readQualifiedName? (lexeme :: rest) with
      | some (table, afterName) =>
        ⟨table, (readTableAlias afterName).1⟩ :: readTables false (readTableAlias afterName).2
      | none => readTables false (lexeme :: rest)
    else
      readTables (lexeme.token = .comma || lexeme.token = .keyword .join) rest
termination_by (lexemes.length, if expectTable then 1 else 0)
decreasing_by
  · have := skipGroup_length_le lexeme rest
    apply Prod.Lex.left
    simp only [List.length_cons]
    omega
  · have hname := readQualifiedName?_length _hname
    have halias := readTableAlias_length_le afterName
    apply Prod.Lex.left
    simp only [List.length_cons] at *
    omega
  · simp_all [Prod.lex_def]
  · apply Prod.Lex.left
    simp

/-- Reads `[IF NOT EXISTS] name [(…)] [AS] SELECT … FROM …` after `CREATE VIEW`. -/
def readView? (lexemes : List Lexeme) : Option ViewDefinition := do
  let (name, afterName) ← readQualifiedName? (skipIfNotExists lexemes)
  let afterSelect ← expectKeyword? .select (skipKeyword .as (skipOptionalGroup afterName))
  let afterDistinct :=
    match expectKeyword? .distinct afterSelect with
    | some rest => rest
    | none => skipOneOf ["ALL"] afterSelect
  let (list, afterList) := readUntil (· = .keyword .fromClause) 0 afterDistinct
  let afterFrom ← expectKeyword? .fromClause afterList
  let (sources, _) := readUntil Token.endsFrom 0 afterFrom
  return ⟨name, (splitCommas list).map .ofLexemes, readTables true sources⟩

end Crowfoot.Sql
