import Crowfoot.Sql.Phrase
import Crowfoot.Sql.Statement

/-!
# Column definitions

A column definition is a name, a type and constraints in any order. The type is kept in upper case
with its size and array marks; everything that says nothing about keys or missing values is passed
over.
-/

namespace Crowfoot.Sql

/-- Words that go on with the name of a type. -/
def typeContinuations : List String :=
  ["PRECISION", "VARYING", "UNSIGNED", "SIGNED", "ZEROFILL", "WITH", "WITHOUT", "TIME", "ZONE"]

/-- A bare word that goes on with the name of a type. -/
def Token.continuesType? : Token → Option (List Char)
  | .word name =>
    if typeContinuations.any (·.toList == Text.upper name) then some name else none
  | _ => none

/-- A word that a type may start with. -/
def Token.typeName? : Token → Option (List Char)
  | .word name => if name.isEmpty then none else some name
  | .quoted name => if name.isEmpty then none else some name
  | _ => none

/-- The canonical spelling of a type: no blanks inside a word, upper case, one space between. -/
def typeSpelling (words : List (List Char)) : String :=
  " ".intercalate (words.map fun word => String.ofList (Text.upper (Text.words word).flatten))

/-- Goes on reading a type. `words` holds the words before the last one. The size in parentheses
binds to the word it follows, and a type has one at most. -/
def readTypeTail? (words : List (List Char)) (last : List Char) (sized : Bool)
    (lexemes : List Lexeme) : Option (String × List Lexeme) :=
  match lexemes with
  | [] => some (typeSpelling (words ++ [last]), [])
  | lexeme :: rest =>
    if lexeme.token = .leftParen ∧ sized = false then
      match _hgroup : closeGroup? 0 rest with
      | none => none
      | some (inner, after) =>
        readTypeTail? words (last ++ '(' :: inner.flatMap Lexeme.text ++ [')']) true after
    else if lexeme.token = .quoted [] then
      readTypeTail? words (last ++ ['[', ']']) sized rest
    else
      match lexeme.token.continuesType? with
      | some word => readTypeTail? (words ++ [last]) word sized rest
      | none => some (typeSpelling (words ++ [last]), lexeme :: rest)
termination_by lexemes.length
decreasing_by
  all_goals simp_wf
  have := closeGroup?_length _hgroup
  omega

/-- Reads a type. -/
def readType? : List Lexeme → Option (String × List Lexeme)
  | [] => none
  | lexeme :: rest => lexeme.token.typeName?.bind fun name => readTypeTail? [] name false rest

/-- Leaves out a default value: a group, a signed value, a name or a call. -/
def skipValue (lexemes : List Lexeme) : List Lexeme :=
  if startsWith .leftParen lexemes then
    skipGroup lexemes
  else if startsWith (.symbol '-') lexemes || startsWith (.symbol '+') lexemes then
    lexemes.drop 2
  else
    skipOptionalGroup lexemes.tail

/-- Leaves out what `ON` says about changes of the referenced row. The `NULL` of `SET NULL` is an
action and no constraint. -/
def skipAction (lexemes : List Lexeme) : List Lexeme :=
  (skipOneOf ["SET", "NO"] (skipOneOf ["DELETE", "UPDATE"] lexemes)).tail

theorem skipAction_length_le (lexemes : List Lexeme) :
    (skipAction lexemes).length ≤ lexemes.length := by
  have hinner := skipWhen_length_le (Token.isOneOf ["DELETE", "UPDATE"]) lexemes
  have houter := skipWhen_length_le (Token.isOneOf ["SET", "NO"])
    (skipWhen (Token.isOneOf ["DELETE", "UPDATE"]) lexemes)
  simp only [skipAction, skipOneOf, List.length_tail]
  omega

/-- Leaves out all actions of a reference. -/
def skipActions : List Lexeme → List Lexeme
  | [] => []
  | lexeme :: rest =>
    if lexeme.token = .keyword .on then skipActions (skipAction rest) else lexeme :: rest
termination_by lexemes => lexemes.length
decreasing_by
  have := skipAction_length_le rest
  simp only [List.length_cons]
  omega

theorem skipActions_length_le (lexemes : List Lexeme) :
    (skipActions lexemes).length ≤ lexemes.length := by
  fun_induction skipActions lexemes with
  | case1 => simp
  | case2 lexeme rest hon ih =>
    have := skipAction_length_le rest
    simp only [List.length_cons]
    omega
  | case3 => simp

/-- A column together with the foreign key that its definition declares. -/
structure ColumnDraft where
  column : Column
  foreignKey : Option ForeignKey := none
  deriving DecidableEq, Repr

/-- Reads the constraint that starts with a lexeme and leaves out what is none. A reference without
a table spoils the definition. -/
def readConstraint? (draft : ColumnDraft) (lexeme : Lexeme) (rest : List Lexeme) :
    Option (ColumnDraft × List Lexeme) :=
  let column := draft.column
  match lexeme.token with
  | .keyword .primary =>
    some ({ draft with column := { column with isPrimaryKey := true } }, skipKeyword .key rest)
  | .keyword .identity =>
    some ({ draft with column := { column with isPrimaryKey := true } }, skipOptionalGroup rest)
  | .keyword .unique => some ({ draft with column := column.asUnique }, skipKeyword .key rest)
  | .keyword .not =>
    match expectKeyword? .null rest with
    | some after => some ({ draft with column := { column with nullability := .notNull } }, after)
    | none => some (draft, rest)
  | .keyword .null =>
    some ({ draft with column := { column with nullability := .nullable } }, rest)
  | .keyword .references =>
    (readQualifiedName? rest).map fun (target, after) =>
      let (targets, afterTargets) := readNameList after
      ({ draft with foreignKey := some ⟨column.name, target, targets.head?⟩ },
        skipActions afterTargets)
  | .keyword .default => some (draft, skipValue rest)
  | .keyword .constraint => some (draft, skipName rest)
  | .leftParen => some (draft, skipGroup (lexeme :: rest))
  | _ => some (draft, rest)

theorem skipValue_length_le (lexemes : List Lexeme) :
    (skipValue lexemes).length ≤ lexemes.length := by
  unfold skipValue
  split
  · cases lexemes with
    | nil => simp [startsWith] at *
    | cons lexeme rest =>
      have := skipGroup_length_le lexeme rest
      simp only [List.length_cons]
      omega
  · split
    · simp
    · have := skipOptionalGroup_length_le lexemes.tail
      simp only [List.length_tail] at this
      omega

theorem readConstraint?_length {draft after : ColumnDraft} {lexeme : Lexeme}
    {rest remaining : List Lexeme}
    (hread : readConstraint? draft lexeme rest = some (after, remaining)) :
    remaining.length ≤ rest.length := by
  have hkey := skipWhen_length_le (· = .keyword .key) rest
  simp only [readConstraint?] at hread
  split at hread
  · simp only [Option.some.injEq, Prod.mk.injEq] at hread
    obtain ⟨_, rfl⟩ := hread
    exact hkey
  · simp only [Option.some.injEq, Prod.mk.injEq] at hread
    obtain ⟨_, rfl⟩ := hread
    exact skipOptionalGroup_length_le rest
  · simp only [Option.some.injEq, Prod.mk.injEq] at hread
    obtain ⟨_, rfl⟩ := hread
    exact hkey
  · split at hread
    · rename_i hnull
      simp only [Option.some.injEq, Prod.mk.injEq] at hread
      obtain ⟨_, rfl⟩ := hread
      exact Nat.le_of_lt (expect?_length hnull)
    · simp_all
  · simp_all
  · simp only [Option.map_eq_some_iff, Prod.mk.injEq, Prod.exists] at hread
    obtain ⟨target, afterName, hname, _, rfl⟩ := hread
    have hactions := skipActions_length_le (readNameList afterName).2
    have hlist := readNameList_length_le afterName
    have hshort := readQualifiedName?_length hname
    omega
  · simp only [Option.some.injEq, Prod.mk.injEq] at hread
    obtain ⟨_, rfl⟩ := hread
    exact skipValue_length_le rest
  · simp only [Option.some.injEq, Prod.mk.injEq] at hread
    obtain ⟨_, rfl⟩ := hread
    exact skipName_length_le rest
  · simp only [Option.some.injEq, Prod.mk.injEq] at hread
    obtain ⟨_, rfl⟩ := hread
    exact skipGroup_length_le lexeme rest
  · simp_all

/-- Reads constraints to the end of the definition. -/
def readConstraints? (draft : ColumnDraft) (lexemes : List Lexeme) : Option ColumnDraft :=
  match lexemes with
  | [] => some draft
  | lexeme :: rest =>
    match _hread : readConstraint? draft lexeme rest with
    | none => none
    | some (after, remaining) => readConstraints? after remaining
termination_by lexemes.length
decreasing_by
  have := readConstraint?_length _hread
  simp only [List.length_cons]
  omega

/-- A primary key admits no missing value, whatever else its definition says. -/
def ColumnDraft.finish (draft : ColumnDraft) : ColumnDraft :=
  if draft.column.isPrimaryKey then { draft with column := draft.column.asPrimaryKey } else draft

/-- Reads a column definition. -/
def readColumn? (lexemes : List Lexeme) : Option ColumnDraft := do
  let (name, afterName) ← readName? lexemes
  let (type, afterType) ← readType? afterName
  let draft ← readConstraints? { column := { name, type } } afterType
  return draft.finish

end Crowfoot.Sql
