import Crowfoot.Proofs.Sql.ReadViews
import Crowfoot.Proofs.Sql.SameShapes

/-!
# Comments

A script is read from its tokens.  Blanks and comments between them may be others, and
the schema stays the same, but for the types of view columns: the source text that is
kept of a computed expression has the comments in it, and a word in a comment may
change the type that is inferred from the text.
-/

namespace Crowfoot.Sql

/-- Two scripts have the same tokens with the same source texts. -/
def SameTokens (left right : String) : Prop :=
  spellings (separateBatches left.toList) = spellings (separateBatches right.toList)

instance (left right : String) : Decidable (SameTokens left right) :=
  inferInstanceAs (Decidable (_ = _))

/-- Lexemes without gaps are told by their spellings. -/
theorem regapped_eq_of_spelling {left right : List Lexeme}
    (hspelling : left.map Lexeme.spelling = right.map Lexeme.spelling) :
    regapped (fun _ => []) left = regapped (fun _ => []) right := by
  have hbare : Lexeme.regap (fun _ => []) =
      (fun spelling : Spelling => ⟨[], spelling.token, spelling.text, 0⟩) ∘ Lexeme.spelling := rfl
  rw [regapped, regapped, hbare, ← List.map_map, ← List.map_map, hspelling]

/-- Scripts of the same tokens are cut into the same statements, which are of the same
shapes. -/
theorem map_shape_ofScript {left right : String} (htokens : SameTokens left right) :
    (Statement.ofScript left.toList).map Statement.shape =
      (Statement.ofScript right.toList).map Statement.shape := by
  have hpieces := congrArg splitStatements (regapped_eq_of_spelling htokens)
  rw [splitStatements_regapped, splitStatements_regapped] at hpieces
  have hshape : (fun piece => (Statement.ofLexemes? piece).map Statement.shape) =
      (fun piece => (Statement.ofLexemes? piece).map Statement.shape) ∘ regapped fun _ => [] := by
    funext piece
    exact (Statement.map_shape_ofLexemes?_regapped _ piece).symm
  rw [Statement.ofScript, Statement.ofScript, List.map_filterMap, List.map_filterMap, hshape,
    ← List.filterMap_map, ← List.filterMap_map, scriptStatements, scriptStatements, hpieces]

/-- Scripts of the same tokens define the same schema, but perhaps for the types of view
columns, and these are the same as well if the same types are inferred for computed
expressions. -/
theorem readSchema?_sameTokens (config : CategoryConfig) {left right : String}
    (htokens : SameTokens left right) :
    Option.Rel Schema.SameButViewTypes (readSchema? config left) (readSchema? config right) ∧
      (inferredTypes left = inferredTypes right →
        readSchema? config left = readSchema? config right) := by
  have hshape := map_shape_ofScript htokens
  constructor
  · exact schemaOfStatements?_rel hshape config
  · intro htypes
    exact schemaOfStatements?_congr config hshape htypes

/-- A script with a comment in a computed expression of a view. -/
def commentedScript (comment : String) : String :=
  "CREATE VIEW v AS SELECT a /*" ++ comment ++ "*/ + 1 FROM t;"

theorem readSchema?_sameTokens_commentedScript :
    SameTokens (commentedScript "plain") (commentedScript "other") ∧
      Option.Rel Schema.SameButViewTypes (readSchema? .standard (commentedScript "plain"))
        (readSchema? .standard (commentedScript "other")) ∧
      inferredTypes (commentedScript "plain") = inferredTypes (commentedScript "other") ∧
      readSchema? .standard (commentedScript "plain") =
        readSchema? .standard (commentedScript "other") := by
  have htokens : SameTokens (commentedScript "plain") (commentedScript "other") := by
    decide +kernel
  have htypes :
      inferredTypes (commentedScript "plain") = inferredTypes (commentedScript "other") := by
    decide +kernel
  obtain ⟨hsame, hequal⟩ := readSchema?_sameTokens .standard htokens
  exact ⟨htokens, hsame, htypes, hequal htypes⟩

/-! ## A comment that counts -/

/-- A gap without what its comments say. -/
def bareGap : GapPlace → List Char → List Char
  | _, [] => []
  | .between, '-' :: '-' :: rest => '-' :: '-' :: bareGap .lineComment rest
  | .between, '#' :: rest => '#' :: bareGap .lineComment rest
  | .between, '/' :: '*' :: rest => '/' :: '*' :: bareGap .blockComment rest
  | .between, c :: rest => c :: bareGap .between rest
  | .lineComment, c :: rest =>
    if c = '\n' then c :: bareGap .between rest else bareGap .lineComment rest
  | .blockComment, '*' :: '/' :: rest => '*' :: '/' :: bareGap .between rest
  | .blockComment, _ :: rest => bareGap .blockComment rest

/-- Two scripts have the same gaps between their tokens, but for what comments say. -/
def SameOutsideComments (left right : String) : Prop :=
  (Lexeme.ofText (separateBatches left.toList)).map (fun lexeme => bareGap .between lexeme.gap) =
    (Lexeme.ofText (separateBatches right.toList)).map fun lexeme => bareGap .between lexeme.gap

instance (left right : String) : Decidable (SameOutsideComments left right) :=
  inferInstanceAs (Decidable (_ = _))

/-- What the script with the comment says. -/
def commentedStatements (comment : String) : List Statement :=
  [.createView ⟨"v", [⟨.computed ("a /*" ++ comment ++ "*/ + 1").toList, none⟩], [⟨"t", none⟩]⟩]

theorem ofLexemes?_of_view {lexemes : List Lexeme}
    (htokens : (lexemes.take 2).map Lexeme.token = [.keyword .create, .keyword .view]) :
    Statement.ofLexemes? lexemes = (readView? (lexemes.drop 2)).map .createView := by
  match lexemes with
  | [] => simp at htokens
  | [_] => simp at htokens
  | create :: view :: rest =>
    obtain ⟨hcreate, hview⟩ : create.token = .keyword .create ∧ view.token = .keyword .view := by
      simpa using htokens
    rw [Statement.ofLexemes?, hcreate]
    exact readCreation?_of_view hview rest

theorem ofScript_commentedScript : ∀ comment ∈ ["count", "plain"],
    Statement.ofScript (commentedScript comment).toList = commentedStatements comment := by
  intro comment hmem
  have hfacts : ∀ comment ∈ ["count", "plain"],
      let pieces := scriptStatements (commentedScript comment).toList
      let view := pieces.headD []
      pieces = [view] ∧
        (view.take 2).map Lexeme.token = [.keyword .create, .keyword .view] ∧
        readQualifiedName? (skipIfNotExists (view.drop 2)) = some ("v", view.drop 3) ∧
        (expectKeyword? .select (skipKeyword .as (skipOptionalGroup (view.drop 3)))).bind
          readSelection? =
            some ([⟨.computed ("a /*" ++ comment ++ "*/ + 1").toList, none⟩],
              [⟨[' '], .word ['t'], ['t'], 45⟩]) := by
    decide +kernel
  obtain ⟨hpieces, htokens, hname, hselection⟩ := hfacts comment hmem
  have hsource : readQualifiedName? [⟨[' '], .word ['t'], ['t'], 45⟩] = some ("t", []) := by
    decide
  have hsources : readTables true [⟨[' '], .word ['t'], ['t'], 45⟩] = [⟨"t", none⟩] := by
    rw [readTables_name (by decide) hsource]
    exact congrArg _ (readTables.eq_1 false)
  rw [Statement.ofScript, hpieces, List.filterMap_cons, ofLexemes?_of_view htokens, readView?_eq,
    hname]
  dsimp only [Option.bind_some]
  rw [hselection, Option.map_some, hsources]
  rfl

/-- The types of columns, table by table. -/
def columnTypes (schema : Schema) : List (List String) :=
  schema.tables.map fun table => table.columns.map Column.type

/-- Two scripts that differ in what a comment says, and a column that is a number in the
one and a text in the other. -/
theorem readSchema?_countComment :
    SameTokens (commentedScript "count") (commentedScript "plain") ∧
      SameOutsideComments (commentedScript "count") (commentedScript "plain") ∧
      (readSchema? .standard (commentedScript "count")).map columnTypes =
        some [["INTEGER"]] ∧
      (readSchema? .standard (commentedScript "plain")).map columnTypes =
        some [["TEXT"]] := by
  refine ⟨by decide +kernel, by decide +kernel, ?_, ?_⟩
  · rw [readSchema?, ofScript_commentedScript "count" (by decide)]
    decide +kernel
  · rw [readSchema?, ofScript_commentedScript "plain" (by decide)]
    decide +kernel

end Crowfoot.Sql
