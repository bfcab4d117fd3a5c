import Crowfoot.Proofs.Sql.Gaps
import Crowfoot.Sql.Reader

/-!
# Gaps in views

What stands between the tokens of a view gets into one place only: the source text
that is kept of a computed expression.  A statement without these source texts is
its shape, and its shape does not depend on any gap.
-/

namespace Crowfoot.Sql

section Gaps

variable (gap : Lexeme → List Char)

/-! ## Select lists and tables -/

@[simp] theorem splitAlias_regapped (lexemes : List Lexeme) :
    splitAlias (regapped gap lexemes) =
      (regapped gap (splitAlias lexemes).1, (splitAlias lexemes).2) := by
  rw [splitAlias, splitAlias, ← regapped_reverse]
  cases lexemes.reverse with
  | nil => rfl
  | cons last front =>
    cases front with
    | nil => rfl
    | cons before rest =>
      simp only [regapped_cons, regap_token, regap_name?, regapped_isEmpty]
      rw [← regapped_cons, ← regapped_reverse, ← regapped_reverse]
      cases Classical.em (before.token = .keyword .as ∧ (!rest.isEmpty) = true) with
      | inl has =>
        cases last.name? with
        | some aliasName => simp only [eq_true has, if_true]
        | none => simp only [eq_true has, if_true]; split <;> simp_all
      | inr has => simp only [eq_false has, if_false]; split <;> simp_all

/-- The token may be the alias of a table without `AS`. -/
def Token.mayNameTable : Token → Bool
  | .word name => !Token.isOneOf joinWords (.word name)
  | .quoted _ => true
  | _ => false

/-- Reads a name that may be missing. -/
def readOptionalName (lexemes : List Lexeme) : Option String × List Lexeme :=
  match readName? lexemes with
  | some (name, rest) => (some name, rest)
  | none => (none, lexemes)

theorem readTableAlias_eq (lexemes : List Lexeme) :
    readTableAlias lexemes =
      match expectKeyword? .as lexemes with
      | some rest => readOptionalName rest
      | none =>
        bif lexemes.head?.any fun lexeme => lexeme.token.mayNameTable then
          readOptionalName lexemes
        else
          (none, lexemes) := by
  rw [cond_eq_ite]
  rfl

theorem readOptionalName_regapped (lexemes : List Lexeme) :
    readOptionalName (regapped gap lexemes) = regappedRest gap (readOptionalName lexemes) := by
  rw [readOptionalName, readOptionalName, readName?_regapped]
  cases readName? lexemes <;> rfl

@[simp] theorem readTableAlias_regapped (lexemes : List Lexeme) :
    readTableAlias (regapped gap lexemes) = regappedRest gap (readTableAlias lexemes) := by
  have hhead : ((regapped gap lexemes).head?.any fun lexeme => lexeme.token.mayNameTable) =
      lexemes.head?.any fun lexeme => lexeme.token.mayNameTable := by
    cases lexemes <;> rfl
  rw [readTableAlias_eq, readTableAlias_eq, expectKeyword?_regapped, hhead]
  cases expectKeyword? .as lexemes with
  | some rest => exact readOptionalName_regapped gap rest
  | none =>
    cases lexemes.head?.any fun lexeme => lexeme.token.mayNameTable with
    | true => exact readOptionalName_regapped gap lexemes
    | false => rfl

@[simp] theorem readTables_regapped (expectTable : Bool) (lexemes : List Lexeme) :
    readTables expectTable (regapped gap lexemes) = readTables expectTable lexemes := by
  fun_induction readTables expectTable lexemes with
  | case1 expectTable => rw [regapped_nil, readTables]
  | case2 expectTable lexeme rest hopen ih =>
    rw [regapped_cons, readTables, regap_token, if_pos hopen, ← regapped_cons, skipGroup_regapped,
      ih]
  | case3 lexeme rest hopen table afterName hname ih =>
    have hread := readQualifiedName?_regapped gap (lexeme :: rest)
    rw [hname, Option.map_some] at hread
    rw [regapped_cons, readTables, regap_token, if_neg hopen, if_pos rfl, ← regapped_cons]
    split
    · rename_i found after hfound
      obtain ⟨rfl, rfl⟩ := Prod.mk.inj (Option.some.inj (hfound.symm.trans hread))
      rw [readTableAlias_regapped]
      exact congrArg _ ih
    · rename_i hnone
      cases hnone.symm.trans hread
  | case4 lexeme rest hopen hname ih =>
    have hread := readQualifiedName?_regapped gap (lexeme :: rest)
    rw [hname, Option.map_none] at hread
    rw [regapped_cons, readTables, regap_token, if_neg hopen, if_pos rfl, ← regapped_cons]
    split
    · rename_i hfound
      cases hfound.symm.trans hread
    · exact ih
  | case5 expectTable lexeme rest hopen hexpect ih =>
    rw [regapped_cons, readTables, regap_token, if_neg hopen, if_neg hexpect, ih]

end Gaps

/-! ## Shapes of statements -/

/-- The expression without the source text that is kept of it. -/
def SelectExpression.shape : SelectExpression → SelectExpression
  | .computed _ => .computed []
  | expression => expression

/-- The item without the source text of its expression. -/
def SelectItem.shape (item : SelectItem) : SelectItem :=
  { item with expression := item.expression.shape }

/-- The view without the source texts of its expressions. -/
def ViewDefinition.shape (definition : ViewDefinition) : ViewDefinition :=
  { definition with items := definition.items.map SelectItem.shape }

/-- The statement without the source texts of expressions. -/
def Statement.shape : Statement → Statement
  | .createView definition => .createView definition.shape
  | statement => statement

section Shapes

variable (gap : Lexeme → List Char)

theorem SelectExpression.shape_ofLexemes_regapped (lexemes : List Lexeme) :
    (ofLexemes (regapped gap lexemes)).shape = (ofLexemes lexemes).shape := by
  unfold ofLexemes
  match lexemes with
  | [] => rfl
  | [only] =>
    simp only [regapped_cons, regapped_nil, regap_token, regap_name?]
    by_cases hstar : only.token = .star
    · simp only [hstar, if_true]
    · cases only.name? <;> simp only [hstar, if_false] <;> rfl
  | [_, _] => rfl
  | [qualifier, dot, last] =>
    simp only [regapped_cons, regapped_nil, regap_token, regap_name?]
    by_cases hdot : dot.token = .dot
    · by_cases hstar : last.token = .star
      · cases qualifier.name? <;> simp [hdot, hstar, shape]
      · cases qualifier.name? <;> cases last.name? <;> simp [hdot, hstar, shape]
    · simp [hdot, shape]
  | [_, _, _, _] => rfl
  | [_, firstDot, qualifier, secondDot, last] =>
    simp only [regapped_cons, regapped_nil, regap_token, regap_name?]
    by_cases hdots : firstDot.token = .dot ∧ secondDot.token = .dot
    · cases qualifier.name? <;> cases last.name? <;> simp [hdots, shape]
    · simp only [eq_false hdots, if_false]
      rfl
  | _ :: _ :: _ :: _ :: _ :: _ :: _ => rfl

theorem SelectItem.shape_ofLexemes_regapped (lexemes : List Lexeme) :
    (ofLexemes (regapped gap lexemes)).shape = (ofLexemes lexemes).shape := by
  rw [ofLexemes, ofLexemes, splitAlias_regapped]
  simp only [shape, SelectExpression.shape_ofLexemes_regapped]

/-- Leaves out `DISTINCT` or `ALL`. -/
def skipDistinct (lexemes : List Lexeme) : List Lexeme :=
  match expectKeyword? .distinct lexemes with
  | some rest => rest
  | none => skipOneOf ["ALL"] lexemes

/-- Reads the items of a view and the lexemes of its `FROM` clause. -/
def readSelection? (lexemes : List Lexeme) : Option (List SelectItem × List Lexeme) :=
  let (list, afterList) := readUntil (· = .keyword .fromClause) 0 (skipDistinct lexemes)
  (expectKeyword? .fromClause afterList).map fun afterFrom =>
    ((splitCommas list).map .ofLexemes, (readUntil Token.endsFrom 0 afterFrom).1)

theorem readView?_eq (lexemes : List Lexeme) :
    readView? lexemes =
      (readQualifiedName? (skipIfNotExists lexemes)).bind fun named =>
        ((expectKeyword? .select (skipKeyword .as (skipOptionalGroup named.2))).bind
          readSelection?).map fun selection =>
            ⟨named.1, selection.1, readTables true selection.2⟩ := by
  unfold readSelection?
  simp only [Option.map_eq_bind, Option.bind_assoc, Option.bind_some, Function.comp_apply]
  rfl

theorem skipDistinct_regapped (lexemes : List Lexeme) :
    skipDistinct (regapped gap lexemes) = regapped gap (skipDistinct lexemes) := by
  rw [skipDistinct, skipDistinct, expectKeyword?_regapped]
  cases expectKeyword? .distinct lexemes with
  | none => exact skipOneOf_regapped gap _ lexemes
  | some rest => rfl

theorem map_shape_readSelection?_regapped (lexemes : List Lexeme) :
    (readSelection? (regapped gap lexemes)).map
        (fun selection => (selection.1.map SelectItem.shape, readTables true selection.2)) =
      (readSelection? lexemes).map
        fun selection => (selection.1.map SelectItem.shape, readTables true selection.2) := by
  rw [readSelection?, readSelection?, skipDistinct_regapped, readUntil_regapped]
  simp only [regappedGroup, expectKeyword?_regapped, Option.map_map]
  congr 1
  funext afterFrom
  simp only [Function.comp_apply, readUntil_regapped, regappedGroup, readTables_regapped,
    splitCommas_regapped, List.map_map]
  congr 2
  exact funext (SelectItem.shape_ofLexemes_regapped gap)

/-- Other gaps change nothing of a view but the source texts of its expressions. -/
theorem map_shape_readView?_regapped (lexemes : List Lexeme) :
    (readView? (regapped gap lexemes)).map ViewDefinition.shape =
      (readView? lexemes).map ViewDefinition.shape := by
  rw [readView?_eq, readView?_eq, skipIfNotExists_regapped, readQualifiedName?_regapped]
  cases readQualifiedName? (skipIfNotExists lexemes) with
  | none => rfl
  | some named =>
    simp only [Option.map_some, Option.bind_some, regappedRest, skipOptionalGroup_regapped,
      skipKeyword_regapped, expectKeyword?_regapped]
    cases expectKeyword? .select (skipKeyword .as (skipOptionalGroup named.2)) with
    | none => rfl
    | some selected =>
      have hselection := congrArg
        (Option.map fun parts : List SelectItem × List TableMention =>
          (⟨named.1, parts.1, parts.2⟩ : ViewDefinition))
        (map_shape_readSelection?_regapped gap selected)
      rw [Option.map_map, Option.map_map] at hselection
      rw [Option.map_some, Option.bind_some, Option.bind_some, Option.map_map, Option.map_map]
      exact hselection

@[simp] theorem skipCreateModifiers_regapped (lexemes : List Lexeme) :
    skipCreateModifiers (regapped gap lexemes) = regapped gap (skipCreateModifiers lexemes) :=
  List.dropWhile_map ..

@[simp] theorem readCreateOptions?_regapped (lexemes : List Lexeme) :
    readCreateOptions? (regapped gap lexemes) =
      (readCreateOptions? lexemes).map (regapped gap) := by
  rw [readCreateOptions?, readCreateOptions?, expectKeyword?_regapped]
  cases expectKeyword? .or lexemes with
  | none => simp
  | some rest =>
    simp only [Option.map_some, expectKeyword?_regapped]
    cases expectKeyword? .replace rest <;> simp

@[simp] theorem readSchemaName?_regapped (lexemes : List Lexeme) :
    readSchemaName? (regapped gap lexemes) = readSchemaName? lexemes := by
  rw [readSchemaName?, readSchemaName?, readQualifiedName?_regapped, Option.map_map]
  rfl

theorem map_shape_readCreation?_regapped (lexemes : List Lexeme) :
    (readCreation? (regapped gap lexemes)).map Statement.shape =
      (readCreation? lexemes).map Statement.shape := by
  rw [readCreation?, readCreation?, readCreateOptions?_regapped]
  cases readCreateOptions? lexemes with
  | none => rfl
  | some created =>
    cases created with
    | nil => rfl
    | cons lexeme rest =>
      simp only [Option.map_some, Option.bind_eq_bind, Option.bind_some, regapped_cons, regap_token,
        readTable?_regapped, skipIfNotExists_regapped, readSchemaName?_regapped]
      have hview := congrArg (Option.map Statement.createView) (map_shape_readView?_regapped gap rest)
      rw [Option.map_map, Option.map_map] at hview
      split
      · rfl
      · rw [Option.map_map, Option.map_map]
        exact hview
      · rfl

/-- Other gaps change nothing of a statement but the source texts of a view's expressions. -/
theorem Statement.map_shape_ofLexemes?_regapped (lexemes : List Lexeme) :
    (ofLexemes? (regapped gap lexemes)).map shape = (ofLexemes? lexemes).map shape := by
  cases lexemes with
  | nil => rfl
  | cons lexeme rest =>
    rw [regapped_cons, ofLexemes?, ofLexemes?, regap_token, readAlteration?_regapped,
      readSchemaName?_regapped]
    split
    · exact map_shape_readCreation?_regapped gap rest
    · rfl
    · rfl

end Shapes

end Crowfoot.Sql
