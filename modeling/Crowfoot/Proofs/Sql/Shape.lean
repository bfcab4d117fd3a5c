import Crowfoot.Proofs.Sql.Extent
import Crowfoot.Proofs.Sql.Nesting

/-!
# Shapes of statements

The highlighter looks at the shape of a statement only, the reader reads it.  For
tables and views both make the same demands on any lexemes.  For `ALTER TABLE`
they do so because of how a script is cut: where a statement holds a semicolon
outside of parentheses, it ends there.  So the bytes that are marked invalid are
those of the statements which the reader does not understand.
-/

namespace Crowfoot.Sql

/-- The statement defines a table or a view, or adds to a table. -/
def Statement.IsDefinition : Statement → Prop
  | .createTable _ | .createView _ | .alterTable _ => True
  | .nameSchema _ => False

/-- The lexemes read as a definition. -/
def ReadsAsDefinition (lexemes : List Lexeme) : Prop :=
  ∃ statement, Statement.ofLexemes? lexemes = some statement ∧ statement.IsDefinition

/-! ## Tables and views -/

theorem isSome_readTable? (lexemes : List Lexeme) :
    (readTable? lexemes).isSome = hasTableShape lexemes := by
  rw [readTable?, hasTableShape]
  cases readQualifiedName? (skipIfNotExists lexemes) with
  | none => rfl
  | some named =>
    obtain ⟨name, rest⟩ := named
    cases hgroup : readGroup? rest <;> simp [hgroup]

/-- A lexeme that is no stop and no parenthesis is passed over. -/
theorem readUntil_cons_snd {stop : Token → Bool} {lexeme : Lexeme} (rest : List Lexeme)
    (hstop : stop lexeme.token = false) (hdepth : lexeme.token.depthAfter 0 = 0) :
    (readUntil stop 0 (lexeme :: rest)).2 = (readUntil stop 0 rest).2 := by
  rw [readUntil, hstop, hdepth, if_neg (by simp)]

/-- Whether `DISTINCT` or `ALL` comes first or not, the select list ends at the same place. -/
theorem readUntil_from_of_distinct (lexemes : List Lexeme) :
    (readUntil (· = .keyword .fromClause) 0
      (match expectKeyword? .distinct lexemes with
        | some rest => rest
        | none => skipOneOf ["ALL"] lexemes)).2 =
      (readUntil (· = .keyword .fromClause) 0 lexemes).2 := by
  cases lexemes with
  | nil => rfl
  | cons lexeme rest =>
    rw [expectKeyword?, expect?]
    by_cases hdistinct : lexeme.token = .keyword .distinct
    · rw [if_pos hdistinct]
      exact (readUntil_cons_snd rest (by simp [hdistinct]) (by rw [hdistinct]; rfl)).symm
    · rw [if_neg hdistinct]
      simp only [skipOneOf, skipWhen]
      by_cases hall : Token.isOneOf ["ALL"] lexeme.token = true
      · obtain ⟨name, hword⟩ : ∃ name, lexeme.token = .word name := by
          cases htoken : lexeme.token <;> simp_all [Token.isOneOf, Token.isWord]
        rw [if_pos hall]
        exact (readUntil_cons_snd rest (by simp [hword]) (by rw [hword]; rfl)).symm
      · rw [if_neg hall]

theorem isSome_expect? (token : Token) (lexemes : List Lexeme) :
    (expect? token lexemes).isSome = startsWith token lexemes := by
  cases lexemes with
  | nil => rfl
  | cons lexeme rest =>
    rw [expect?, startsWith, List.head?_cons, Option.any_some]
    split <;> simp_all

theorem isSome_readView? (lexemes : List Lexeme) :
    (readView? lexemes).isSome = hasViewShape lexemes := by
  rw [readView?, hasViewShape]
  cases readQualifiedName? (skipIfNotExists lexemes) with
  | none => rfl
  | some named =>
    obtain ⟨name, rest⟩ := named
    simp only [Option.bind_eq_bind, Option.bind_some]
    cases expectKeyword? .select (skipKeyword .as (skipOptionalGroup rest)) with
    | none => rfl
    | some list =>
      simp only [Option.bind_some]
      rw [← readUntil_from_of_distinct list, ← isSome_expect?, ← expectKeyword?]
      cases expectKeyword? .fromClause _ <;> rfl

/-- The name of a schema defines nothing. -/
theorem not_isDefinition_of_readSchemaName? {lexemes : List Lexeme} {statement : Statement}
    (hread : readSchemaName? lexemes = some statement) : ¬ statement.IsDefinition := by
  obtain ⟨_, -, rfl⟩ := Option.map_eq_some_iff.1 hread
  exact id

theorem readsAsDefinition_create {lexeme : Lexeme} (hcreate : lexeme.token = .keyword .create)
    (rest : List Lexeme) :
    ReadsAsDefinition (lexeme :: rest) ↔ hasCreateShape rest = true := by
  rw [ReadsAsDefinition, Statement.ofLexemes?, hcreate, hasCreateShape]
  simp only [readCreation?]
  cases readCreateOptions? rest with
  | none => simp
  | some options =>
    cases options with
    | nil => simp
    | cons kind body =>
      simp only [Option.bind_eq_bind, Option.bind_some]
      split
      · rename_i htable
        simp only [htable, ← isSome_readTable?]
        cases readTable? body <;> simp [Statement.IsDefinition]
      · rename_i hview
        simp only [hview, ← isSome_readView?]
        cases readView? body <;> simp [Statement.IsDefinition]
      · split
        · simpa using fun statement => not_isDefinition_of_readSchemaName?
        · simp

/-! ## Changes of tables -/

/-- What has been left out of the front of some lexemes holds no parenthesis and no semicolon. -/
def LeavesFlat (lexemes rest : List Lexeme) : Prop :=
  ∃ front, lexemes = front ++ rest ∧ ∀ lexeme ∈ front, IsFlat .semicolon 0 lexeme.token

theorem LeavesFlat.refl (lexemes : List Lexeme) : LeavesFlat lexemes lexemes :=
  ⟨[], rfl, by simp⟩

theorem LeavesFlat.trans {lexemes middle rest : List Lexeme} (hfirst : LeavesFlat lexemes middle)
    (hsecond : LeavesFlat middle rest) : LeavesFlat lexemes rest := by
  obtain ⟨front, rfl, hfront⟩ := hfirst
  obtain ⟨back, rfl, hback⟩ := hsecond
  exact ⟨front ++ back, (List.append_assoc front back rest).symm,
    List.forall_mem_append.2 ⟨hfront, hback⟩⟩

theorem LeavesFlat.of_cons {lexeme : Lexeme} (rest : List Lexeme)
    (hflat : IsFlat .semicolon 0 lexeme.token) : LeavesFlat (lexeme :: rest) rest :=
  ⟨[lexeme], rfl, List.forall_mem_singleton.2 hflat⟩

theorem isFlat_keyword (keyword : Keyword) : IsFlat .semicolon 0 (.keyword keyword) :=
  ⟨by simp, by simp, by simp⟩

theorem isFlat_of_name? {lexeme : Lexeme} {name : String} (hname : lexeme.name? = some name) :
    IsFlat .semicolon 0 lexeme.token := by
  rw [Lexeme.name?] at hname
  split at hname
  · rename_i hword
    rw [hword]
    exact ⟨by simp, by simp, by simp⟩
  · rename_i hquoted
    rw [hquoted]
    exact ⟨by simp, by simp, by simp⟩
  · rename_i keyword hkeyword
    rw [hkeyword]
    exact isFlat_keyword keyword
  · simp at hname

theorem skipKeyword_leavesFlat (keyword : Keyword) (lexemes : List Lexeme) :
    LeavesFlat lexemes (skipKeyword keyword lexemes) := by
  cases lexemes with
  | nil => exact LeavesFlat.refl []
  | cons lexeme rest =>
    rw [skipKeyword, skipWhen]
    split
    · rename_i htoken
      refine LeavesFlat.of_cons rest ?_
      rw [of_decide_eq_true htoken]
      exact isFlat_keyword keyword
    · exact LeavesFlat.refl _

theorem expectKeyword?_leavesFlat {keyword : Keyword} {lexemes rest : List Lexeme}
    (hread : expectKeyword? keyword lexemes = some rest) : LeavesFlat lexemes rest := by
  cases lexemes with
  | nil => simp [expectKeyword?, expect?] at hread
  | cons lexeme tail =>
    rw [expectKeyword?, expect?] at hread
    split at hread
    · rename_i htoken
      obtain rfl := Option.some.inj hread
      refine LeavesFlat.of_cons tail ?_
      rw [htoken]
      exact isFlat_keyword keyword
    · simp at hread

theorem skipAlterOptions_leavesFlat (lexemes : List Lexeme) :
    LeavesFlat lexemes (skipAlterOptions lexemes) := by
  have honly := skipKeyword_leavesFlat .only lexemes
  rw [skipAlterOptions]
  split
  · rename_i rest hif
    exact ((honly.trans (expectKeyword?_leavesFlat hif)).trans
      (skipKeyword_leavesFlat .existsClause rest)).trans (skipKeyword_leavesFlat .only _)
  · exact honly.trans (skipKeyword_leavesFlat .only _)

theorem readQualification_leavesFlat (name : String) (lexemes : List Lexeme) :
    LeavesFlat lexemes (readQualification name lexemes).2 := by
  have hdot : IsFlat .semicolon 0 .dot := ⟨by simp, by simp, by simp⟩
  fun_induction readQualification name lexemes with
  | case1 | case3 | case6 => exact LeavesFlat.refl _
  | case2 name lexeme htoken => exact LeavesFlat.of_cons [] (htoken ▸ hdot)
  | case4 name lexeme next rest htoken part hpart ih =>
    exact ((LeavesFlat.of_cons _ (htoken ▸ hdot)).trans
      (LeavesFlat.of_cons rest (isFlat_of_name? hpart))).trans ih
  | case5 name lexeme next rest htoken => exact LeavesFlat.of_cons _ (htoken ▸ hdot)

theorem readQualifiedName?_leavesFlat {lexemes rest : List Lexeme} {name : String}
    (hread : readQualifiedName? lexemes = some (name, rest)) : LeavesFlat lexemes rest := by
  obtain ⟨⟨first, after⟩, hname, hqualified⟩ := Option.map_eq_some_iff.1 hread
  have hafter := readQualification_leavesFlat first after
  rw [show readQualification first after = (name, rest) from hqualified] at hafter
  cases lexemes with
  | nil => simp [readName?] at hname
  | cons lexeme tail =>
    obtain ⟨part, hpart, hsame⟩ := Option.map_eq_some_iff.1 hname
    obtain ⟨rfl, rfl⟩ := Prod.mk.inj hsame
    exact (LeavesFlat.of_cons tail (isFlat_of_name? hpart)).trans hafter

/-- A semicolon outside of parentheses is the last lexeme. -/
def EndsAtSemicolon (lexemes : List Lexeme) : Prop :=
  (depthPast .semicolon 0 (lexemes.dropLast.map Lexeme.spelling)).isSome = true

theorem endsAtSemicolon_of_depthPast {lexemes : List Lexeme} {depth : Nat}
    (hpast : depthPast .semicolon 0 (lexemes.map Lexeme.spelling) = some depth) :
    EndsAtSemicolon lexemes := by
  rcases List.eq_nil_or_concat lexemes with rfl | ⟨front, last, rfl⟩
  · rfl
  · rw [List.concat_eq_append, List.map_append, depthPast_append] at hpast
    obtain ⟨_, hfront, -⟩ := Option.bind_eq_some_iff.1 hpast
    rw [EndsAtSemicolon, List.concat_eq_append, List.dropLast_concat, hfront, Option.isSome_some]

theorem eq_reverse_of_mem_finishPiece {reversed piece : List Lexeme}
    (hmem : piece ∈ finishPiece reversed) : piece = reversed.reverse := by
  rw [finishPiece] at hmem
  split at hmem
  · simp at hmem
  · exact List.mem_singleton.1 hmem

theorem endsAtSemicolon_of_mem_finishPiece {begun piece : List Lexeme} {depth : Nat}
    (hbegun : depthPast .semicolon 0 (begun.reverse.map Lexeme.spelling) = some depth)
    (hmem : piece ∈ finishPiece begun) : EndsAtSemicolon piece := by
  rw [eq_reverse_of_mem_finishPiece hmem]
  exact endsAtSemicolon_of_depthPast hbegun

/-- The statement begun so far has passed no semicolon outside of parentheses. -/
theorem endsAtSemicolon_of_mem_splitStatementsFrom {begun : List Lexeme} {depth : Nat}
    (lexemes : List Lexeme)
    (hbegun : depthPast .semicolon 0 (begun.reverse.map Lexeme.spelling) = some depth) :
    ∀ statement ∈ splitStatementsFrom begun depth lexemes, EndsAtSemicolon statement := by
  have hkeyword {lexeme : Lexeme} {keyword : Keyword} (htoken : lexeme.token = .keyword keyword) :
      depthPast .semicolon 0 ([lexeme].reverse.map Lexeme.spelling) = some 0 := by
    have hflat : IsFlat .semicolon 0 lexeme.token := htoken ▸ isFlat_keyword keyword
    exact IsFlat.keepsDepth hflat 0 (Nat.le_refl 0)
  fun_induction splitStatementsFrom begun depth lexemes with
  | case1 | case2 => exact fun _ => endsAtSemicolon_of_mem_finishPiece hbegun
  | case3 begun depth lexeme rest hcreate ih =>
    exact List.forall_mem_append.2 ⟨fun _ => endsAtSemicolon_of_mem_finishPiece hbegun,
      ih (hkeyword hcreate)⟩
  | case4 begun depth lexeme rest halter ih =>
    exact List.forall_mem_append.2 ⟨fun _ => endsAtSemicolon_of_mem_finishPiece hbegun,
      ih (hkeyword halter)⟩
  | case5 begun depth lexeme rest token _ _ hsemicolon ih =>
    refine List.forall_mem_append.2 ⟨fun statement hmem => ?_, ih rfl⟩
    rw [eq_reverse_of_mem_finishPiece hmem, EndsAtSemicolon, List.reverse_cons,
      List.dropLast_concat, hbegun, Option.isSome_some]
  | case6 begun depth lexeme rest token _ _ hpass ih =>
    refine ih ?_
    rw [List.reverse_cons, List.map_append, depthPast_append, hbegun, Option.bind_some]
    exact if_neg hpass

/-- What is left of a statement behind a flat front starts with a semicolon only if
nothing follows it. -/
theorem eq_singleton_of_leavesFlat {lexemes more : List Lexeme} {lexeme : Lexeme}
    (hends : EndsAtSemicolon lexemes) (hleaves : LeavesFlat lexemes (lexeme :: more))
    (hsemicolon : lexeme.token = .semicolon) : more = [] := by
  obtain ⟨front, rfl, hfront⟩ := hleaves
  by_contra hmore
  have hpast : depthPast .semicolon 0 (front.map Lexeme.spelling) = some 0 :=
    keepsDepth_of_forall_isFlat (List.forall_mem_map.2 hfront) 0 (Nat.le_refl 0)
  rw [EndsAtSemicolon, List.dropLast_append_of_ne_nil (List.cons_ne_nil _ _),
    List.dropLast_cons_of_ne_nil hmore, List.map_append, depthPast_append, hpast, Option.bind_some,
    List.map_cons, depthPast, if_pos ⟨hsemicolon, rfl⟩] at hends
  simp at hends

theorem isEmpty_dropFinalSemicolon {actions : List Lexeme}
    (hactions : ∀ lexeme more, actions = lexeme :: more → lexeme.token = .semicolon → more = []) :
    (dropFinalSemicolon actions).isEmpty = (actions.isEmpty || startsWith .semicolon actions) := by
  cases actions with
  | nil => rfl
  | cons lexeme more =>
    by_cases hsemicolon : lexeme.token = .semicolon
    · rw [hactions lexeme more rfl hsemicolon]
      simp [dropFinalSemicolon, startsWith, hsemicolon]
    · cases more with
      | nil => simp [dropFinalSemicolon, startsWith, hsemicolon]
      | cons next rest =>
        rw [dropFinalSemicolon]
        split <;> simp [startsWith, hsemicolon]

theorem isSome_readAlteration? {lexeme : Lexeme} {rest : List Lexeme}
    (halter : lexeme.token = .keyword .alter) (hends : EndsAtSemicolon (lexeme :: rest)) :
    (readAlteration? rest).isSome = hasAlterShape rest := by
  have hstart : LeavesFlat (lexeme :: rest) rest :=
    LeavesFlat.of_cons rest (halter ▸ isFlat_keyword .alter)
  rw [readAlteration?, hasAlterShape]
  cases htable : expectKeyword? .table rest with
  | none => rfl
  | some afterTable =>
    cases hname : readQualifiedName? (skipAlterOptions afterTable) with
    | none => simp [hname]
    | some named =>
      obtain ⟨table, actions⟩ := named
      have hleaves : LeavesFlat (lexeme :: rest) actions :=
        ((hstart.trans (expectKeyword?_leavesFlat htable)).trans
          (skipAlterOptions_leavesFlat afterTable)).trans (readQualifiedName?_leavesFlat hname)
      have hempty : (dropFinalSemicolon actions).isEmpty =
          (actions.isEmpty || startsWith .semicolon actions) :=
        isEmpty_dropFinalSemicolon fun first more hactions =>
          eq_singleton_of_leavesFlat hends (hactions ▸ hleaves)
      simp only [hname, Option.bind_eq_bind, Option.bind_some, hempty]
      cases actions.isEmpty <;> cases startsWith .semicolon actions <;> rfl

/-! ## Statements of a script -/

theorem readsAsDefinition_alter {lexeme : Lexeme} {rest : List Lexeme}
    (halter : lexeme.token = .keyword .alter) (hends : EndsAtSemicolon (lexeme :: rest)) :
    ReadsAsDefinition (lexeme :: rest) ↔ hasAlterShape rest = true := by
  rw [ReadsAsDefinition, Statement.ofLexemes?, halter, ← isSome_readAlteration? halter hends]
  cases readAlteration? rest <;> simp [Statement.IsDefinition]

/-- The shape of a statement of a script tells whether it reads as a definition. -/
theorem hasStatementShape_iff {text : List Char} {statement : List Lexeme}
    (hstatement : statement ∈ scriptStatements text) :
    hasStatementShape statement = true ↔ ReadsAsDefinition statement := by
  have hends : EndsAtSemicolon statement :=
    endsAtSemicolon_of_mem_splitStatementsFrom _ rfl statement hstatement
  cases statement with
  | nil => simp [hasStatementShape, ReadsAsDefinition, Statement.ofLexemes?]
  | cons lexeme rest =>
    rw [hasStatementShape]
    split
    · rename_i hcreate
      exact (readsAsDefinition_create hcreate rest).symm
    · rename_i halter
      exact (readsAsDefinition_alter halter hends).symm
    · rename_i hcreate halter
      rw [ReadsAsDefinition, Statement.ofLexemes?]
      split
      · contradiction
      · contradiction
      · split
        · simpa using fun statement => not_isDefinition_of_readSchemaName?
        · simp

/-! ## Marks -/

/-- The offset lies between the start of the first lexeme and the end of the last. -/
def SpansOffset (lexemes : List Lexeme) (offset : Nat) : Prop :=
  ∃ first ∈ lexemes.head?, ∃ last ∈ lexemes.getLast?,
    first.start ≤ offset ∧ offset < last.stop

theorem marks_statementBlocks (text : List Char) (offset : Nat) :
    MarkedRange.Marks (statementBlocks text) offset false ↔
      ∃ statement ∈ scriptStatements text, (∃ lexeme ∈ statement, lexeme.token ≠ .semicolon) ∧
        hasStatementShape statement = false ∧ SpansOffset statement offset := by
  constructor
  · rintro ⟨block, hblock, hinvalid, hstart, hstop⟩
    obtain ⟨statement, hstatement, hsome⟩ := List.mem_filterMap.1 hblock
    obtain ⟨hother, first, hfirst, last, hlast, rfl⟩ := statementBlock?_eq_some_iff.1 hsome
    exact ⟨statement, hstatement, hother, hinvalid, first, hfirst, last, hlast, hstart, hstop⟩
  · rintro ⟨statement, hstatement, hother, hinvalid, first, hfirst, last, hlast, hstart, hstop⟩
    refine ⟨⟨first.start, last.stop, hasStatementShape statement⟩, ?_, hinvalid, hstart, hstop⟩
    exact List.mem_filterMap.2 ⟨statement, hstatement,
      statementBlock?_eq_some_iff.2 ⟨hother, first, hfirst, last, hlast, rfl⟩⟩

/-- The blocks of a script mark what its cover marks. -/
theorem marks_highlight (text : List Char) (offset : Nat) :
    MarkedRange.Marks (highlight text) offset false ↔
      MarkedRange.Marks (statementBlocks text) offset false := by
  have hapart := pairwise_statementBlocks text
  have hblocks : ∀ block ∈ statementBlocks text, block.start ≤ block.stop :=
    fun _ => start_le_stop_of_mem_statementBlocks
  have hsorted : (statementBlocks text).Pairwise fun left right => left.start ≤ right.start :=
    hapart.imp_of_mem fun hleft _ hle => (hblocks _ hleft).trans hle
  rw [highlight, ← statementBlocks, MarkedRange.marks_partition _ hblocks hsorted,
    MarkedRange.validityAt_eq_false_iff hapart, and_iff_right_iff_imp]
  rintro ⟨block, hblock, -, -, hstop⟩
  exact Nat.lt_of_lt_of_le hstop (isBoundary_of_mem_statementBlocks hblock).2.le

/-- The shape of a statement of a script tells whether it reads as a definition, so
the offsets that are marked invalid are those of the statements that do not. -/
theorem highlight_invalid_iff (text : List Char) :
    (∀ statement ∈ scriptStatements text,
      hasStatementShape statement = true ↔ ReadsAsDefinition statement) ∧
    ∀ offset, MarkedRange.Marks (highlight text) offset false ↔
      ∃ statement ∈ scriptStatements text, (∃ lexeme ∈ statement, lexeme.token ≠ .semicolon) ∧
        ¬ ReadsAsDefinition statement ∧ SpansOffset statement offset := by
  have hshape : ∀ statement ∈ scriptStatements text,
      hasStatementShape statement = true ↔ ReadsAsDefinition statement :=
    fun statement => hasStatementShape_iff
  refine ⟨hshape, fun offset => ?_⟩
  rw [marks_highlight, marks_statementBlocks]
  refine exists_congr fun statement => and_congr_right fun hstatement => ?_
  rw [← hshape statement hstatement, Bool.not_eq_true]

/-- A change of a table that is none is read as nothing. -/
theorem highlight_invalid_iff_idleChange :
    MarkedRange.Marks (highlight "ALTER TABLE t;".toList) 13 false ∧
      ∃ statement ∈ scriptStatements "ALTER TABLE t;".toList,
        hasStatementShape statement = false ∧ ¬ ReadsAsDefinition statement := by
  have hmarked : MarkedRange.Marks (highlight "ALTER TABLE t;".toList) 13 false :=
    ⟨⟨0, 14, false⟩, by decide +kernel, rfl, by decide, by decide⟩
  obtain ⟨hshape, hinvalid⟩ := highlight_invalid_iff "ALTER TABLE t;".toList
  obtain ⟨statement, hmem, -, hnot, -⟩ := (hinvalid 13).1 hmarked
  have hshapeless := mt (hshape statement hmem).1 hnot
  exact ⟨hmarked, statement, hmem, (Bool.not_eq_true _).mp hshapeless, hnot⟩

end Crowfoot.Sql
