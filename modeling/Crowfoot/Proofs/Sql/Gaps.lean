import Crowfoot.Sql.TableClause

/-!
# Gaps between tokens

Readers look at tokens and at their source texts, not at what stands between them.
A reader that is given lexemes with other gaps reads the same and leaves the same
lexemes, with the other gaps.  So other blanks and comments change nothing of the
tables that a script defines.
-/

namespace Crowfoot.Sql

/-- A lexeme with another gap in front of it, wherever it stood. -/
def Lexeme.regap (gap : Lexeme → List Char) (lexeme : Lexeme) : Lexeme :=
  { lexeme with gap := gap lexeme, start := 0 }

/-- Lexemes with other gaps between them. -/
def regapped (gap : Lexeme → List Char) (lexemes : List Lexeme) : List Lexeme :=
  lexemes.map (Lexeme.regap gap)

/-- What is read in front, and the rest with other gaps. -/
def regappedRest {α : Type} (gap : Lexeme → List Char) (reading : α × List Lexeme) :
    α × List Lexeme :=
  (reading.1, regapped gap reading.2)

section Gaps

variable (gap : Lexeme → List Char)

@[simp] theorem regap_token (lexeme : Lexeme) : (lexeme.regap gap).token = lexeme.token := rfl

@[simp] theorem regap_name? (lexeme : Lexeme) : (lexeme.regap gap).name? = lexeme.name? := rfl

@[simp] theorem regapped_nil : regapped gap [] = [] := rfl

@[simp] theorem regapped_cons (lexeme : Lexeme) (rest : List Lexeme) :
    regapped gap (lexeme :: rest) = lexeme.regap gap :: regapped gap rest := rfl

@[simp] theorem regapped_reverse (lexemes : List Lexeme) :
    regapped gap lexemes.reverse = (regapped gap lexemes).reverse :=
  List.map_reverse

@[simp] theorem regapped_tail (lexemes : List Lexeme) :
    regapped gap lexemes.tail = (regapped gap lexemes).tail :=
  List.map_tail

@[simp] theorem regapped_drop (count : Nat) (lexemes : List Lexeme) :
    regapped gap (lexemes.drop count) = (regapped gap lexemes).drop count :=
  List.map_drop

@[simp] theorem regapped_isEmpty (lexemes : List Lexeme) :
    (regapped gap lexemes).isEmpty = lexemes.isEmpty := by
  cases lexemes <;> rfl

/-! ## Statements and items -/

theorem finishPiece_regapped (begun : List Lexeme) :
    finishPiece (regapped gap begun) = (finishPiece begun).map (regapped gap) := by
  rw [finishPiece, finishPiece, regapped_isEmpty]
  split
  · rfl
  · rw [List.map_singleton, regapped_reverse]

theorem splitStatementsFrom_regapped (begun : List Lexeme) (depth : Nat) (lexemes : List Lexeme) :
    splitStatementsFrom (regapped gap begun) depth (regapped gap lexemes) =
      (splitStatementsFrom begun depth lexemes).map (regapped gap) := by
  induction lexemes generalizing begun depth with
  | nil => exact finishPiece_regapped gap begun
  | cons lexeme rest ih =>
    rw [regapped_cons, splitStatementsFrom, splitStatementsFrom, regap_token]
    have hfirst := ih [lexeme] 0
    have hmore := ih (lexeme :: begun) (lexeme.token.depthAfter depth)
    have hnext := ih [] 0
    have hclosed := finishPiece_regapped gap (lexeme :: begun)
    simp only [regapped_cons, regapped_nil] at hfirst hmore hnext hclosed
    split
    · exact finishPiece_regapped gap begun
    · rw [List.map_append, ← hfirst, finishPiece_regapped]
    · rw [List.map_append, ← hfirst, finishPiece_regapped]
    · split
      · rw [List.map_append, ← hnext, hclosed]
      · exact hmore

/-- Statements are cut apart at tokens. -/
theorem splitStatements_regapped (lexemes : List Lexeme) :
    splitStatements (regapped gap lexemes) = (splitStatements lexemes).map (regapped gap) :=
  splitStatementsFrom_regapped gap [] 0 lexemes

theorem splitCommasFrom_regapped (begun : List Lexeme) (depth : Nat) (lexemes : List Lexeme) :
    splitCommasFrom (regapped gap begun) depth (regapped gap lexemes) =
      (splitCommasFrom begun depth lexemes).map (regapped gap) := by
  induction lexemes generalizing begun depth with
  | nil => exact finishPiece_regapped gap begun
  | cons lexeme rest ih =>
    have hmore := ih (lexeme :: begun) (lexeme.token.depthAfter depth)
    have hnext := ih [] 0
    simp only [regapped_cons, regapped_nil] at hmore hnext
    rw [regapped_cons, splitCommasFrom, splitCommasFrom, regap_token]
    split
    · rw [List.map_append, ← hnext, finishPiece_regapped]
    · exact hmore

/-- Items are cut apart at tokens. -/
@[simp] theorem splitCommas_regapped (lexemes : List Lexeme) :
    splitCommas (regapped gap lexemes) = (splitCommas lexemes).map (regapped gap) :=
  splitCommasFrom_regapped gap [] 0 lexemes

/-! ## Phrases -/

@[simp] theorem startsWith_regapped (token : Token) (lexemes : List Lexeme) :
    startsWith token (regapped gap lexemes) = startsWith token lexemes := by
  cases lexemes <;> rfl

@[simp] theorem skipWhen_regapped (test : Token → Bool) (lexemes : List Lexeme) :
    skipWhen test (regapped gap lexemes) = regapped gap (skipWhen test lexemes) := by
  cases lexemes with
  | nil => rfl
  | cons lexeme rest =>
    rw [regapped_cons, skipWhen, skipWhen, regap_token]
    split <;> rfl

@[simp] theorem skipKeyword_regapped (keyword : Keyword) (lexemes : List Lexeme) :
    skipKeyword keyword (regapped gap lexemes) = regapped gap (skipKeyword keyword lexemes) :=
  skipWhen_regapped gap _ lexemes

@[simp] theorem skipOneOf_regapped (words : List String) (lexemes : List Lexeme) :
    skipOneOf words (regapped gap lexemes) = regapped gap (skipOneOf words lexemes) :=
  skipWhen_regapped gap _ lexemes

@[simp] theorem expect?_regapped (token : Token) (lexemes : List Lexeme) :
    expect? token (regapped gap lexemes) = (expect? token lexemes).map (regapped gap) := by
  cases lexemes with
  | nil => rfl
  | cons lexeme rest =>
    rw [regapped_cons, expect?, expect?, regap_token]
    split <;> rfl

@[simp] theorem expectKeyword?_regapped (keyword : Keyword) (lexemes : List Lexeme) :
    expectKeyword? keyword (regapped gap lexemes) =
      (expectKeyword? keyword lexemes).map (regapped gap) :=
  expect?_regapped gap _ lexemes

@[simp] theorem readName?_regapped (lexemes : List Lexeme) :
    readName? (regapped gap lexemes) = (readName? lexemes).map (regappedRest gap) := by
  cases lexemes with
  | nil => rfl
  | cons lexeme rest =>
    rw [regapped_cons, readName?, readName?, regap_name?, Option.map_map]
    rfl

@[simp] theorem skipName_regapped (lexemes : List Lexeme) :
    skipName (regapped gap lexemes) = regapped gap (skipName lexemes) := by
  rw [skipName, skipName, readName?_regapped]
  cases readName? lexemes <;> rfl

@[simp] theorem readQualification_regapped (name : String) (lexemes : List Lexeme) :
    readQualification name (regapped gap lexemes) =
      regappedRest gap (readQualification name lexemes) := by
  fun_induction readQualification name lexemes with
  | case1 name => rfl
  | case2 name lexeme hdot => simp [readQualification, regappedRest, hdot]
  | case3 name lexeme hdot => simp [readQualification, regappedRest, hdot]
  | case4 name lexeme next rest hdot part hpart ih =>
    simp [readQualification, hdot, hpart, ih]
  | case5 name lexeme next rest hdot hpart =>
    simp [readQualification, hdot, hpart, regappedRest]
  | case6 name lexeme next rest hdot => simp [readQualification, hdot, regappedRest]

@[simp] theorem readQualifiedName?_regapped (lexemes : List Lexeme) :
    readQualifiedName? (regapped gap lexemes) =
      (readQualifiedName? lexemes).map (regappedRest gap) := by
  rw [readQualifiedName?, readQualifiedName?, readName?_regapped]
  cases readName? lexemes with
  | none => rfl
  | some reading => exact congrArg some (readQualification_regapped gap reading.1 reading.2)

/-- The inside of a group and what follows it, both with other gaps. -/
def regappedGroup (reading : List Lexeme × List Lexeme) : List Lexeme × List Lexeme :=
  (regapped gap reading.1, regapped gap reading.2)

@[simp] theorem closeGroup?_regapped (depth : Nat) (lexemes : List Lexeme) :
    closeGroup? depth (regapped gap lexemes) =
      (closeGroup? depth lexemes).map (regappedGroup gap) := by
  induction lexemes generalizing depth with
  | nil => rfl
  | cons lexeme rest ih =>
    rw [regapped_cons, closeGroup?, closeGroup?, regap_token, ih]
    split
    · rfl
    · rw [Option.map_map, Option.map_map]
      rfl

@[simp] theorem readGroup?_regapped (lexemes : List Lexeme) :
    readGroup? (regapped gap lexemes) = (readGroup? lexemes).map (regappedGroup gap) := by
  rw [readGroup?, readGroup?, expect?_regapped]
  cases expect? .leftParen lexemes with
  | none => rfl
  | some rest => exact closeGroup?_regapped gap 0 rest

@[simp] theorem skipGroup_regapped (lexemes : List Lexeme) :
    skipGroup (regapped gap lexemes) = regapped gap (skipGroup lexemes) := by
  rw [skipGroup, skipGroup, startsWith_regapped, readGroup?_regapped]
  split
  · cases readGroup? lexemes <;> rfl
  · exact (regapped_tail gap lexemes).symm

@[simp] theorem skipOptionalGroup_regapped (lexemes : List Lexeme) :
    skipOptionalGroup (regapped gap lexemes) = regapped gap (skipOptionalGroup lexemes) := by
  rw [skipOptionalGroup, skipOptionalGroup, startsWith_regapped, skipGroup_regapped]
  split <;> rfl

@[simp] theorem readNameList_regapped (lexemes : List Lexeme) :
    readNameList (regapped gap lexemes) = regappedRest gap (readNameList lexemes) := by
  rw [readNameList, readNameList, readGroup?_regapped]
  cases readGroup? lexemes with
  | none => rfl
  | some reading =>
    have hname (item : List Lexeme) :
        (regapped gap item).head?.bind Lexeme.name? = item.head?.bind Lexeme.name? := by
      cases item <;> rfl
    simp [regappedGroup, regappedRest, List.filterMap_map, Function.comp_def, hname]

@[simp] theorem readUntil_regapped (stop : Token → Bool) (depth : Nat) (lexemes : List Lexeme) :
    readUntil stop depth (regapped gap lexemes) =
      regappedGroup gap (readUntil stop depth lexemes) := by
  induction lexemes generalizing depth with
  | nil => rfl
  | cons lexeme rest ih =>
    rw [regapped_cons, readUntil, readUntil, regap_token, ih]
    split <;> rfl

@[simp] theorem skipIfNotExists_regapped (lexemes : List Lexeme) :
    skipIfNotExists (regapped gap lexemes) = regapped gap (skipIfNotExists lexemes) := by
  rw [skipIfNotExists, skipIfNotExists, expectKeyword?_regapped]
  cases expectKeyword? .ifClause lexemes with
  | none => rfl
  | some rest => simp

/-! ## Columns -/

@[simp] theorem flatMap_text_regapped (lexemes : List Lexeme) :
    (regapped gap lexemes).flatMap Lexeme.text = lexemes.flatMap Lexeme.text :=
  List.flatMap_map _ _ _

theorem readTypeTail?_regapped (words : List (List Char)) (last : List Char) (sized : Bool)
    (lexemes : List Lexeme) :
    readTypeTail? words last sized (regapped gap lexemes) =
      (readTypeTail? words last sized lexemes).map (regappedRest gap) := by
  fun_induction readTypeTail? words last sized lexemes with
  | case1 => rw [regapped_nil, readTypeTail?]; rfl
  | case2 words last sized lexeme rest hopen hgroup =>
    rw [regapped_cons, readTypeTail?, regap_token, if_pos hopen]
    split
    · rfl
    · simp_all
  | case3 words last sized lexeme rest hopen inner after hgroup ih =>
    rw [regapped_cons, readTypeTail?, regap_token, if_pos hopen]
    split
    · simp_all
    · rename_i inner' after' hgroup'
      rw [closeGroup?_regapped, hgroup, Option.map_some, Option.some.injEq] at hgroup'
      obtain ⟨rfl, rfl⟩ := Prod.mk.inj hgroup'
      rw [flatMap_text_regapped]
      exact ih
  | case4 words last sized lexeme rest hopen hquoted ih =>
    rw [regapped_cons, readTypeTail?, regap_token, if_neg hopen, if_pos hquoted]
    exact ih
  | case5 words last sized lexeme rest hopen hquoted word hword ih =>
    rw [regapped_cons, readTypeTail?, regap_token, if_neg hopen, if_neg hquoted]
    simp only [hword]
    exact ih
  | case6 words last sized lexeme rest hopen hquoted hword =>
    rw [regapped_cons, readTypeTail?, regap_token, if_neg hopen, if_neg hquoted]
    simp only [hword]
    rfl

@[simp] theorem readType?_regapped (lexemes : List Lexeme) :
    readType? (regapped gap lexemes) = (readType? lexemes).map (regappedRest gap) := by
  cases lexemes with
  | nil => rfl
  | cons lexeme rest =>
    rw [regapped_cons, readType?, readType?, regap_token]
    cases lexeme.token.typeName? with
    | none => rfl
    | some name => exact readTypeTail?_regapped gap [] name false rest

@[simp] theorem skipValue_regapped (lexemes : List Lexeme) :
    skipValue (regapped gap lexemes) = regapped gap (skipValue lexemes) := by
  rw [skipValue, skipValue]
  simp only [startsWith_regapped, skipGroup_regapped, ← regapped_tail, ← regapped_drop,
    skipOptionalGroup_regapped]
  split
  · rfl
  · split <;> rfl

@[simp] theorem skipAction_regapped (lexemes : List Lexeme) :
    skipAction (regapped gap lexemes) = regapped gap (skipAction lexemes) := by
  rw [skipAction, skipAction, skipOneOf_regapped, skipOneOf_regapped, regapped_tail]

@[simp] theorem skipActions_regapped (lexemes : List Lexeme) :
    skipActions (regapped gap lexemes) = regapped gap (skipActions lexemes) := by
  fun_induction skipActions lexemes with
  | case1 => rw [regapped_nil, skipActions]
  | case2 lexeme rest hon ih =>
    rw [regapped_cons, skipActions, regap_token, if_pos hon, skipAction_regapped, ih]
  | case3 lexeme rest hon => rw [regapped_cons, skipActions, regap_token, if_neg hon]

theorem readConstraint?_regapped (draft : ColumnDraft) (lexeme : Lexeme) (rest : List Lexeme) :
    readConstraint? draft (lexeme.regap gap) (regapped gap rest) =
      (readConstraint? draft lexeme rest).map (regappedRest gap) := by
  rw [readConstraint?, readConstraint?, regap_token]
  split
  · simp [regappedRest]
  · simp [regappedRest]
  · simp [regappedRest]
  · rw [expectKeyword?_regapped]
    cases expectKeyword? .null rest <;> rfl
  · rfl
  · rw [readQualifiedName?_regapped]
    cases readQualifiedName? rest with
    | none => rfl
    | some reading => simp [regappedRest]
  · simp [regappedRest]
  · simp [regappedRest]
  · rw [← regapped_cons, skipGroup_regapped]
    rfl
  · rfl

@[simp] theorem readConstraints?_regapped (draft : ColumnDraft) (lexemes : List Lexeme) :
    readConstraints? draft (regapped gap lexemes) = readConstraints? draft lexemes := by
  fun_induction readConstraints? draft lexemes with
  | case1 draft => rw [regapped_nil, readConstraints?]
  | case2 draft lexeme rest hread =>
    rw [regapped_cons, readConstraints?]
    split
    · rfl
    · simp_all [readConstraint?_regapped]
  | case3 draft lexeme rest after remaining hread ih =>
    rw [regapped_cons, readConstraints?]
    split
    · simp_all [readConstraint?_regapped]
    · rename_i other left hother
      rw [readConstraint?_regapped, hread, Option.map_some, Option.some.injEq] at hother
      obtain ⟨rfl, rfl⟩ := Prod.mk.inj hother
      exact ih

@[simp] theorem readColumn?_regapped (lexemes : List Lexeme) :
    readColumn? (regapped gap lexemes) = readColumn? lexemes := by
  rw [readColumn?, readColumn?, readName?_regapped]
  cases readName? lexemes with
  | none => rfl
  | some named =>
    simp only [Option.map_some, Option.bind_eq_bind, Option.bind_some, regappedRest,
      readType?_regapped]
    cases readType? named.2 with
    | none => rfl
    | some typed => simp [regappedRest]

/-! ## Tables -/

@[simp] theorem skipClustering_regapped (lexemes : List Lexeme) :
    skipClustering (regapped gap lexemes) = regapped gap (skipClustering lexemes) :=
  skipOneOf_regapped gap _ lexemes

@[simp] theorem readForeignKeys?_regapped (lexemes : List Lexeme) :
    readForeignKeys? (regapped gap lexemes) = readForeignKeys? lexemes := by
  rw [readForeignKeys?, readForeignKeys?, expectKeyword?_regapped]
  cases expectKeyword? .key lexemes with
  | none => rfl
  | some afterKey =>
    simp only [Option.map_some, Option.bind_eq_bind, Option.bind_some, readNameList_regapped,
      regappedRest, expectKeyword?_regapped]
    cases expectKeyword? .references (readNameList afterKey).2 with
    | none => rfl
    | some afterReferences =>
      simp only [Option.map_some, Option.bind_some, readQualifiedName?_regapped]
      cases readQualifiedName? afterReferences with
      | none => rfl
      | some reading => simp [regappedRest]

@[simp] theorem readPrimaryKey?_regapped (lexemes : List Lexeme) :
    readPrimaryKey? (regapped gap lexemes) = readPrimaryKey? lexemes := by
  rw [readPrimaryKey?, readPrimaryKey?, expectKeyword?_regapped, Option.map_map]
  congr 1
  funext rest
  simp [regappedRest]

@[simp] theorem readUnique_regapped (lexemes : List Lexeme) :
    readUnique (regapped gap lexemes) = readUnique lexemes := by
  rw [readUnique, readUnique]
  simp only [skipWhen_regapped, skipClustering_regapped, startsWith_regapped, skipName_regapped]
  split <;> simp [regappedRest]

/-- A key, nothing, or a definition with other gaps. -/
def ClauseReading.regapped (gap : Lexeme → List Char) : ClauseReading → ClauseReading
  | .key clause => .key clause
  | .nothing => .nothing
  | .definition lexemes => .definition (Sql.regapped gap lexemes)

theorem readKeyClause_regapped (lexemes : List Lexeme) :
    readKeyClause (regapped gap lexemes) = (readKeyClause lexemes).regapped gap := by
  have hbody : (((expectKeyword? .constraint lexemes).map (regapped gap)).map skipName).getD
      (regapped gap lexemes) =
        regapped gap (((expectKeyword? .constraint lexemes).map skipName).getD lexemes) := by
    cases expectKeyword? .constraint lexemes <;> simp
  rw [readKeyClause, readKeyClause]
  simp only [expectKeyword?_regapped, hbody, Option.isSome_map]
  cases ((expectKeyword? .constraint lexemes).map skipName).getD lexemes with
  | nil => dsimp only [regapped_nil]; split <;> rfl
  | cons lexeme rest =>
    simp only [regapped_cons, regap_token]
    split
    · rw [readPrimaryKey?_regapped]
      cases readPrimaryKey? rest <;> rfl
    · rw [readUnique_regapped]
      rfl
    · rw [readForeignKeys?_regapped]
      cases readForeignKeys? rest <;> rfl
    · rfl
    · rfl
    · rfl
    · split <;> rfl

@[simp] theorem readColumnClause?_regapped (lexemes : List Lexeme) :
    readColumnClause? (regapped gap lexemes) = readColumnClause? lexemes := by
  rw [readColumnClause?, readColumnClause?, readColumn?_regapped]

@[simp] theorem readTableClause?_regapped (lexemes : List Lexeme) :
    readTableClause? (regapped gap lexemes) = readTableClause? lexemes := by
  rw [readTableClause?, readTableClause?, readKeyClause_regapped]
  cases readKeyClause lexemes with
  | key clause => rfl
  | nothing => rfl
  | definition body =>
    simp only [ClauseReading.regapped, readColumnClause?_regapped]
    cases body <;> rfl

@[simp] theorem readAddition?_regapped (lexemes : List Lexeme) :
    readAddition? (regapped gap lexemes) = readAddition? lexemes := by
  rw [readAddition?, readAddition?, expectKeyword?_regapped]
  cases expectKeyword? .add lexemes with
  | none => rfl
  | some added =>
    simp only [Option.map_some, Option.bind_eq_bind, Option.bind_some, readKeyClause_regapped]
    cases readKeyClause added with
    | key clause => rfl
    | nothing => rfl
    | definition body => simp [ClauseReading.regapped]

/-- Items that are read apart from their gaps are read the same. -/
theorem filterMap_splitCommas_regapped {α : Type} {read : List Lexeme → Option α}
    (hread : ∀ item, read (regapped gap item) = read item) (lexemes : List Lexeme) :
    (splitCommas (regapped gap lexemes)).filterMap read = (splitCommas lexemes).filterMap read := by
  rw [splitCommas_regapped, List.filterMap_map]
  congr 1
  exact funext hread

@[simp] theorem readTable?_regapped (lexemes : List Lexeme) :
    readTable? (regapped gap lexemes) = readTable? lexemes := by
  rw [readTable?, readTable?, skipIfNotExists_regapped, readQualifiedName?_regapped]
  cases readQualifiedName? (skipIfNotExists lexemes) with
  | none => rfl
  | some named =>
    simp only [Option.map_some, Option.bind_eq_bind, Option.bind_some, regappedRest,
      readGroup?_regapped]
    cases readGroup? named.2 with
    | none => rfl
    | some body =>
      have hclauses := filterMap_splitCommas_regapped gap (readTableClause?_regapped gap) body.1
      simp only [Option.map_some, Option.bind_some, regappedGroup, hclauses]

@[simp] theorem dropFinalSemicolon_regapped (lexemes : List Lexeme) :
    dropFinalSemicolon (regapped gap lexemes) = regapped gap (dropFinalSemicolon lexemes) := by
  have hlast : ((regapped gap lexemes).getLast?.any fun lexeme => lexeme.token = .semicolon) =
      lexemes.getLast?.any fun lexeme => lexeme.token = .semicolon := by
    rw [regapped, List.getLast?_map]
    cases lexemes.getLast? <;> rfl
  rw [dropFinalSemicolon, dropFinalSemicolon, hlast]
  split
  · exact List.map_dropLast.symm
  · rfl

@[simp] theorem skipAlterOptions_regapped (lexemes : List Lexeme) :
    skipAlterOptions (regapped gap lexemes) = regapped gap (skipAlterOptions lexemes) := by
  rw [skipAlterOptions, skipAlterOptions]
  simp only [skipKeyword_regapped, expectKeyword?_regapped]
  cases expectKeyword? .ifClause (skipKeyword .only lexemes) <;> simp

@[simp] theorem readAlteration?_regapped (lexemes : List Lexeme) :
    readAlteration? (regapped gap lexemes) = readAlteration? lexemes := by
  rw [readAlteration?, readAlteration?, expectKeyword?_regapped]
  cases expectKeyword? .table lexemes with
  | none => rfl
  | some afterTable =>
    simp only [Option.map_some, Option.bind_eq_bind, Option.bind_some, skipAlterOptions_regapped,
      readQualifiedName?_regapped]
    cases readQualifiedName? (skipAlterOptions afterTable) with
    | none => rfl
    | some named =>
      have hadditions := filterMap_splitCommas_regapped gap (readAddition?_regapped gap)
        (dropFinalSemicolon named.2)
      simp only [Option.map_some, Option.bind_some, regappedRest, dropFinalSemicolon_regapped,
        regapped_isEmpty, hadditions]

end Gaps

end Crowfoot.Sql
