import Crowfoot.Proofs.Document.Reading
import Crowfoot.Proofs.Sql.Openings
import Crowfoot.Proofs.Text.Blanks

/-!
# Detection

The format of a text is guessed without reading it: a diagram by the header that it
starts with, a script by two words that open a definition.  The guess agrees with
what reading finds unless the text starts like one of the other format, and unless
every definition of a script has more than blanks between its two words; such a
script goes undetected, which is as good for highlighting.
-/

namespace Crowfoot

/-! ## Diagrams -/

namespace Mermaid

/-- What comments start with. -/
def commentMark : List Char := "%%".toList

/-- Unless a text starts with a comment, the first line that counts is what it starts with. -/
theorem head_ofRawLines_prefix {raws : List (List Char)} {offset : Nat} {first : Line}
    {rest : List Line} (hlines : Line.ofRawLines offset raws = first :: rest)
    (hcomment : ¬ commentMark <+: Text.trimStart raws.flatten) :
    first.text <+: Text.trimStart raws.flatten := by
  induction raws generalizing offset with
  | nil => cases hlines
  | cons raw more ih =>
    have hfront := Text.trim_prefix raw more.flatten
    rw [List.flatten_cons] at hcomment ⊢
    rw [Line.ofRawLines] at hlines
    split at hlines
    · rename_i hignored
      rcases Bool.or_eq_true_iff.1 hignored with hempty | hmark
      · have hblanks := Text.isBlank_of_trim_eq_nil (List.isEmpty_iff.1 hempty)
        rw [Text.trimStart_append hblanks] at hcomment ⊢
        exact ih hlines hcomment
      · exact absurd ((List.isPrefixOf_iff_prefix.1 hmark).trans hfront) hcomment
    · rw [← (List.cons.inj hlines).1]
      exact hfront

end Mermaid

namespace Document

/-- A diagram that is read and does not start with a comment starts with its header. -/
theorem startsWithHeader_of_readSchema? {config : CategoryConfig} {text : String} {schema : Schema}
    (hread : Mermaid.readSchema? config text = some schema)
    (hcomment : ¬ Mermaid.commentMark <+: Text.trimStart text.toList) :
    startsWithHeader text.toList = true := by
  obtain ⟨diagram, hdiagram, -⟩ := Option.map_eq_some_iff.1 hread
  rw [Mermaid.Diagram.ofText?] at hdiagram
  split at hdiagram
  · cases hdiagram
  rename_i first rest hlines
  split at hdiagram
  · rename_i hheader
    have hprefix : first.text <+: Text.trimStart text.toList := by
      rw [← Text.flatten_linesOf text.toList] at hcomment ⊢
      exact Mermaid.head_ofRawLines_prefix hlines hcomment
    have hlength : first.text.length = Mermaid.header.length := by
      have hfold := congrArg List.length (Text.sameText_iff.1 hheader)
      rwa [Text.foldCase, Text.foldCase, List.length_map, List.length_map] at hfold
    rw [startsWithHeader, ← hlength, ← List.prefix_iff_eq_take.1 hprefix]
    exact hheader
  · cases hdiagram

/-! ## Scripts -/

/-- The opening words of a definition are one of the phrases that show a script. -/
theorem sqlPhrases_eq : sqlPhrases.map String.toList =
    Sql.definitionOpenings.map fun opening =>
      opening.1.spelling.toList ++ ' ' :: opening.2.spelling.toList := by
  decide

/-- A script with a statement that opens plainly shows one of the phrases. -/
theorem any_contains_of_opensPlainly {text : List Char} {statement : List Sql.Lexeme}
    (hstatement : statement ∈ Sql.scriptStatements text) (hopens : Sql.OpensPlainly statement) :
    (sqlPhrases.any fun phrase => Text.contains phrase.toList (collapsed text)) = true := by
  have hspelling : ∀ keyword ∈ Sql.Keyword.all, keyword.spelling.toList ≠ [] ∧
      ∀ c ∈ keyword.spelling.toList, Text.isBlank c = false := by
    decide
  obtain ⟨⟨first, second⟩, hopening, hopens⟩ := hopens
  obtain ⟨opening, gap, next, hfirst, hsecond, hgap, hblanks, hpart⟩ :=
    Sql.exists_infix_of_opensWith hstatement hopens
  obtain ⟨hfirstSome, hfirstWord⟩ := hspelling first (Sql.Keyword.mem_all first)
  obtain ⟨hsecondSome, hsecondWord⟩ := hspelling second (Sql.Keyword.mem_all second)
  have hupper : first.spelling.toList ++ gap ++ second.spelling.toList <:+: Text.upper text := by
    have hmapped := hpart.flatMap Text.upperChar
    rwa [← Text.upper, ← Text.upper, Text.upper_append, Text.upper_append, hfirst.upper_eq,
      hsecond.upper_eq, Text.upper_blanks hblanks] at hmapped
  have hphrase : first.spelling.toList ++ ' ' :: second.spelling.toList <:+: collapsed text :=
    Text.infix_intercalate_words hfirstSome hfirstWord hgap hblanks hsecondSome hsecondWord hupper
  have hmem : first.spelling.toList ++ ' ' :: second.spelling.toList ∈
      sqlPhrases.map String.toList := by
    rw [sqlPhrases_eq]
    exact List.mem_map_of_mem hopening
  obtain ⟨phrase, hlisted, hphraseEq⟩ := List.mem_map.1 hmem
  exact List.any_eq_true.2 ⟨phrase, hlisted, Text.contains_iff_infix.2 (hphraseEq ▸ hphrase)⟩

/-! ## Documents -/

/-- The text does not start like one of the other format: a script not with the header of a
diagram, a diagram not with a comment. -/
def OpensAs (format : Format) (text : List Char) : Prop :=
  match format with
  | .sql => startsWithHeader text = false
  | .mermaid => ¬ Mermaid.commentMark <+: Text.trimStart text

instance (format : Format) (text : List Char) : Decidable (OpensAs format text) :=
  match format with
  | .sql => inferInstanceAs (Decidable (_ = _))
  | .mermaid => inferInstanceAs (Decidable (¬ _))

section Detected

variable {text : String}

/-- What goes undetected is highlighted as a script. -/
theorem highlight_none_of_detect? {format : Format}
    (hdetect : detect? text = some format ∨ detect? text = none ∧ format = .sql) :
    highlight none text = highlight (some format) text := by
  rcases hdetect with hdetect | ⟨hdetect, rfl⟩
  · rw [highlight, highlight, hdetect]
    rfl
  · rw [highlight, highlight, hdetect]
    rfl

/-- A script with no header in front is detected, unless no statement of it opens plainly. -/
theorem detect?_script (hheader : startsWithHeader text.toList = false) :
    detect? text = some .sql ∨ detect? text = none ∧
      ∀ statement ∈ Sql.scriptStatements text.toList, ¬ Sql.OpensPlainly statement := by
  rw [detect?, hheader, if_neg Bool.false_ne_true]
  split
  · exact Or.inl rfl
  · rename_i hphrase
    exact Or.inr ⟨rfl, fun _ hstatement hopens =>
      hphrase (any_contains_of_opensPlainly hstatement hopens)⟩

/-- A text that does not start like one of the other format is detected as what it is read as,
unless it is a script that has more than blanks between the two words of every definition.  It
is always highlighted as what it is read as. -/
theorem detect?_of_read? {config : CategoryConfig} {schema : Schema}
    (hread : read? config none text = some schema) (hopens : OpensAs schema.format text.toList) :
    (detect? text = some schema.format ∨
      schema.format = .sql ∧ detect? text = none ∧
        ∀ statement ∈ Sql.scriptStatements text.toList, ¬ Sql.OpensPlainly statement) ∧
      highlight none text = highlight (some schema.format) text := by
  have hfound := readAs?_of_read? hread
  cases hformat : schema.format with
  | sql =>
    rw [hformat] at hopens
    have hdetect := detect?_script hopens
    exact ⟨hdetect.imp_right fun hnone => ⟨rfl, hnone⟩,
      highlight_none_of_detect? (hdetect.imp_right fun hnone => ⟨hnone.1, rfl⟩)⟩
  | mermaid =>
    rw [hformat] at hfound hopens
    have hdetect : detect? text = some .mermaid := by
      rw [detect?, startsWithHeader_of_readSchema? hfound hopens, if_pos rfl]
    exact ⟨Or.inl hdetect, highlight_none_of_detect? (Or.inl hdetect)⟩

/-- A diagram and two scripts, of which the second goes undetected. -/
def detectableTexts : List String :=
  ["erDiagram\nUSER \x7b int id PK \x7d", "CREATE TABLE t (id INT);",
    "CREATE TEMP TABLE t (id INT);"]

theorem detect?_of_read?_detectableTexts :
    detectableTexts.Forall fun text => ∃ schema, read? .standard none text = some schema ∧
      OpensAs schema.format text.toList ∧
      (detect? text = some schema.format ∨
        schema.format = .sql ∧ detect? text = none ∧
          ∀ statement ∈ Sql.scriptStatements text.toList, ¬ Sql.OpensPlainly statement) ∧
      highlight none text = highlight (some schema.format) text := by
  have hopens : ∀ text ∈ detectableTexts, ((read? .standard none text).map fun schema =>
      decide (OpensAs schema.format text.toList)) = some true := by
    decide +kernel
  rw [List.forall_iff_forall_mem]
  intro text hmem
  obtain ⟨schema, hread, hdecides⟩ := Option.map_eq_some_iff.1 (hopens text hmem)
  exact ⟨schema, hread, of_decide_eq_true hdecides,
    detect?_of_read? hread (of_decide_eq_true hdecides)⟩

/-- The text is read as a schema with a table and detected as something else, or as nothing. -/
def IsMisdetected (text : String) : Prop :=
  ∃ schema, read? .standard none text = some schema ∧ schema.tables ≠ [] ∧
    detect? text ≠ some schema.format

/-- A script with a modifier between the two words, a diagram behind a comment, and a script
behind the header of a diagram. -/
def misdetectedTexts : List String :=
  ["CREATE TEMP TABLE t (id INT);", "%% users\nerDiagram\nUSER \x7b int id PK \x7d",
    "erDiagram; CREATE TABLE t (id INT);"]

/-- Neither the two words nor the start of a text can be left out of account. -/
theorem misdetectedTexts_areMisdetected : misdetectedTexts.Forall IsMisdetected := by
  have hmissed : ∀ text ∈ misdetectedTexts, ((read? .standard none text).map fun schema =>
      decide (schema.tables ≠ [] ∧ detect? text ≠ some schema.format)) = some true := by
    decide +kernel
  rw [List.forall_iff_forall_mem]
  intro text hmem
  obtain ⟨schema, hread, hdecides⟩ := Option.map_eq_some_iff.1 (hmissed text hmem)
  exact ⟨schema, hread, of_decide_eq_true hdecides⟩

end Detected

end Document

end Crowfoot
