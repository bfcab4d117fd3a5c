import Crowfoot.Sql.Batch
import Crowfoot.Sql.Lexer

/-!
# Scripts

A script is cut into statements before any of them is read, so that a malformed statement takes
nothing else with it.
-/

namespace Crowfoot.Sql

/-- The parenthesis depth after a token; a parenthesis too many closes nothing. -/
def Token.depthAfter (depth : Nat) : Token → Nat
  | .leftParen => depth + 1
  | .rightParen => depth - 1
  | _ => depth

/-- A piece collected backwards, if it holds anything. -/
def finishPiece (reversed : List Lexeme) : List (List Lexeme) :=
  if reversed.isEmpty then [] else [reversed.reverse]

/-- Cuts lexemes into statements; the statement begun so far is given backwards, with its
parenthesis depth. -/
def splitStatementsFrom (begun : List Lexeme) (depth : Nat) :
    List Lexeme → List (List Lexeme)
  | [] => finishPiece begun
  | lexeme :: rest =>
    match lexeme.token with
    | .eof => finishPiece begun
    | .keyword .create | .keyword .alter =>
      finishPiece begun ++ splitStatementsFrom [lexeme] 0 rest
    | token =>
      if token = .semicolon ∧ depth = 0 then
        finishPiece (lexeme :: begun) ++ splitStatementsFrom [] 0 rest
      else
        splitStatementsFrom (lexeme :: begun) (token.depthAfter depth) rest

/-- Cuts lexemes into statements. A semicolon outside of parentheses ends a statement and belongs to
it; `CREATE` and `ALTER` begin a new one wherever they stand. -/
def splitStatements (lexemes : List Lexeme) : List (List Lexeme) :=
  splitStatementsFrom [] 0 lexemes

/-- Cuts lexemes at the commas outside of parentheses; the piece begun so far is given backwards,
with the parenthesis depth. -/
def splitCommasFrom (begun : List Lexeme) (depth : Nat) : List Lexeme → List (List Lexeme)
  | [] => finishPiece begun
  | lexeme :: rest =>
    if lexeme.token = .comma ∧ depth = 0 then
      finishPiece begun ++ splitCommasFrom [] 0 rest
    else
      splitCommasFrom (lexeme :: begun) (lexeme.token.depthAfter depth) rest

/-- Cuts lexemes at the commas outside of parentheses and drops empty pieces. -/
def splitCommas (lexemes : List Lexeme) : List (List Lexeme) :=
  splitCommasFrom [] 0 lexemes

/-- The statements of a script. -/
def scriptStatements (text : List Char) : List (List Lexeme) :=
  splitStatements (Lexeme.ofText (separateBatches text))

theorem flatten_finishPiece (reversed : List Lexeme) :
    (finishPiece reversed).flatten = reversed.reverse := by
  cases reversed <;> simp [finishPiece]

end Crowfoot.Sql
