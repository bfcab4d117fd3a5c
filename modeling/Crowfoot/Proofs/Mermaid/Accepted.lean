import Crowfoot.Proofs.Mermaid.Connections
import Crowfoot.Proofs.Mermaid.Lockstep
import Crowfoot.Proofs.Mermaid.Types
import Crowfoot.Sql.Schema

/-!
# Written diagrams are read whole

Of a written diagram the header, the names of entities and the relationship lines can
always be read.  An attribute line can be read if its type is a word; types are only
rid of their blanks, so that a type with a quote or a brace in it makes a line that is
invalid and passed over, and one that starts a comment makes a line that is ignored.
The types that a diagram gives are words, so a diagram that is read and written again
is read whole; a script may give others.
-/

namespace Crowfoot.Mermaid

/-! ## Valid lines -/

/-- From a place on, all lines that count are judged valid. -/
def AllValid (place : LinePlace) : List (List Char) → Prop
  | [] => True
  | line :: rest =>
    if isIgnored line then
      AllValid place rest
    else
      (judgeLine place line).1 = true ∧ AllValid (judgeLine place line).2 rest

section AllValid

variable {place : LinePlace} {line : List Char} {rest : List (List Char)}

theorem allValid_cons_of_isIgnored (hignored : isIgnored line = true) :
    AllValid place (line :: rest) ↔ AllValid place rest := by
  rw [AllValid, if_pos hignored]

theorem allValid_cons_of_judged {isValid : Bool} {next : LinePlace}
    (hcounts : isIgnored line = false) (hjudged : judgeLine place line = (isValid, next)) :
    AllValid place (line :: rest) ↔ isValid = true ∧ AllValid next rest := by
  rw [AllValid, if_neg (by simp [hcounts]), hjudged]

theorem allValid_append_of_empty {gap : List (List Char)} (hgap : ∀ line ∈ gap, line = []) :
    AllValid place (gap ++ rest) ↔ AllValid place rest := by
  induction gap with
  | nil => rfl
  | cons line more ih =>
    obtain ⟨rfl, hmore⟩ := List.forall_mem_cons.1 hgap
    rw [List.cons_append, allValid_cons_of_isIgnored rfl, ih hmore]

end AllValid

/-- The blocks of raw lines are valid when what the lines say is. -/
theorem forall_lineBlocks_iff (place : LinePlace) (start : Nat) (raws : List (List Char)) :
    (∀ block ∈ lineBlocks place (Line.ofRawLines start raws), block.isValid = true) ↔
      AllValid place (raws.map Text.trim) := by
  induction raws generalizing place start with
  | nil => simp [Line.ofRawLines, lineBlocks, AllValid]
  | cons raw rest ih =>
    rw [List.map_cons, AllValid, Line.ofRawLines]
    by_cases hignored : isIgnored (Text.trim raw) = true
    · simp only [hignored, if_true, ih]
    · simp only [hignored, if_false, lineBlocks, List.forall_mem_cons, ih, Bool.false_eq_true]

/-- Highlighting marks all of a text valid when all its lines are. -/
theorem highlight_eq_valid_iff {text : List Char} (hsome : text ≠ []) :
    highlight text = [⟨0, Text.byteLength text, true⟩] ↔
      AllValid .beforeHeader ((Text.linesOf text).map Text.trim) := by
  rw [← forall_lineBlocks_iff .beforeHeader 0, highlight]
  refine MarkedRange.partition_eq_valid_iff (Text.byteLength_pos hsome) (fun block hblock => ?_)
    (pairwise_lineBlocks (pairwise_ofRawLines 0 _))
  obtain ⟨line, hline, hstart, hstop⟩ := exists_line_of_mem_lineBlocks hblock
  obtain ⟨before, after, hlines⟩ := List.append_of_mem hline
  rw [hstart, hstop]
  exact ⟨start_lt_stop_of_ofText hlines, (isBoundary_of_mem_ofText hline).2.le⟩

/-! ## Reading whole -/

/-- Reading the text passes nothing over that is not blank: no line is a comment, the
first one is the header, and the scan takes every later one whole. -/
structure IsReadWhole (text : List Char) : Prop where
  noComment : ∀ raw ∈ Text.linesOf text, isIgnored (Text.trim raw) = true → Text.trim raw = []
  header : ∃ first ∈ (Line.ofText text).head?, isHeader first.text = true
  takes : ∀ first before line after, Line.ofText text = first :: before ++ line :: after →
    (scanAfter before).TakesWhole line.text

/-- Lines behind the header are valid when the scan takes each of them whole. -/
theorem forall_takesWhole_iff (before lines : List Line) :
    (∀ between line after, lines = between ++ line :: after →
        (scanAfter (before ++ between)).TakesWhole line.text) ↔
      ∀ block ∈ lineBlocks (placeAfter .topLevel before) lines, block.isValid = true := by
  induction lines generalizing before with
  | nil => simp [lineBlocks]
  | cons first rest ih =>
    have hnext : placeAfter .topLevel (before ++ [first]) =
        (judgeLine (placeAfter .topLevel before) first.text).2 := by
      rw [placeAfter, List.foldl_concat, placeAfter]
    have hrest := ih (before ++ [first])
    rw [hnext] at hrest
    rw [lineBlocks, List.forall_mem_cons, ← hrest, (agree_after before).valid_iff]
    constructor
    · intro htakes
      refine ⟨by simpa using htakes [] first rest rfl, fun between line after hlines => ?_⟩
      have hlater := htakes (first :: between) line after (by rw [hlines]; rfl)
      rwa [List.append_assoc]
    · rintro ⟨hfirst, hlater⟩ between line after hlines
      cases between with
      | nil =>
        obtain ⟨rfl, -⟩ := List.cons.inj hlines
        rwa [List.append_nil]
      | cons next more =>
        obtain ⟨rfl, hmore⟩ := List.cons.inj hlines
        have htaken := hlater more line after hmore
        rwa [List.append_assoc] at htaken

/-- A text with the header first is read whole when it has no comments and is valid. -/
theorem isReadWhole_iff {text : List Char} {first : Line} {lines : List Line}
    (htext : Line.ofText text = first :: lines) (hfirst : isHeader first.text = true) :
    IsReadWhole text ↔
      (∀ line ∈ (Text.linesOf text).map Text.trim, isIgnored line = true → line = []) ∧
        AllValid .beforeHeader ((Text.linesOf text).map Text.trim) := by
  have hblocks : lineBlocks .beforeHeader (first :: lines) =
      ⟨first.start, first.stop, true⟩ :: lineBlocks .topLevel lines := by
    rw [lineBlocks, judgeLine, if_pos hfirst]
  have htakes := forall_takesWhole_iff [] lines
  rw [List.forall_mem_map, ← forall_lineBlocks_iff .beforeHeader 0, ← Line.ofText, htext, hblocks,
    List.forall_mem_cons, and_iff_right rfl]
  constructor
  · intro hwhole
    refine ⟨hwhole.noComment, htakes.1 fun between line after hlines => ?_⟩
    exact hwhole.takes first between line after (by rw [htext, hlines]; rfl)
  · rintro ⟨hcomment, hvalid⟩
    refine ⟨hcomment, ⟨first, by rw [htext]; rfl, hfirst⟩, fun other before line after heq => ?_⟩
    rw [htext, List.cons_append] at heq
    exact htakes.2 hvalid before line after (List.cons.inj heq).2

/-! ## Written lines -/

/-- The type starts a comment where it stands first on a line. -/
def startsComment (type : List Char) : Bool :=
  "%%".toList.isPrefixOf type

theorem startsComment_of_isAttributeWord {type : List Char}
    (htype : isAttributeWord type = true) : startsComment type = false := by
  obtain ⟨first, rest, rfl, hfirst⟩ := exists_cons_of_isAttributeWord htype
  exact (Bool.or_eq_false_iff.1 (isIgnored_of_isWordStart hfirst rest)).2

section Block

variable {rest : List (List Char)}

/-- An attribute line is valid if its type is a word, and not judged if it starts a
comment; either way the block stays open. -/
theorem allValid_attributeLines (typeWidth nameWidth : Nat) (columns : List Column) :
    AllValid .inBlock (columns.map (attributeLine typeWidth nameWidth) ++ rest) ↔
      (∀ column ∈ columns, isAttributeWord (typeName column).toList = true ∨
        startsComment (typeName column).toList = true) ∧ AllValid .inBlock rest := by
  induction columns with
  | nil => simp
  | cons column more ih =>
    have hignored := isIgnored_attributeLine typeWidth nameWidth column
    rw [List.map_cons, List.cons_append, List.forall_mem_cons, and_assoc, ← ih]
    cases hcomment : startsComment (typeName column).toList with
    | true =>
      rw [allValid_cons_of_isIgnored (hignored.trans hcomment)]
      simp
    | false =>
      have hjudged : judgeLine .inBlock (attributeLine typeWidth nameWidth column) =
          (isAttributeWord (typeName column).toList, .inBlock) := by
        have hsome : (attributeLine typeWidth nameWidth column).isEmpty = false := by
          obtain ⟨more, hline, -⟩ := exists_attributeLine typeWidth nameWidth column
          simp [hline]
        rw [judgeLine, judgeBlockText, cutClosingBrace_attributeLine]
        simp only [isAttributeText, hsome, readAttribute?_attributeLine, Bool.false_or]
        split <;> simp_all
      rw [allValid_cons_of_judged (hignored.trans hcomment) hjudged]
      simp

theorem allValid_blockLines {table : Table} (hname : isEntityName table.name.toList = true) :
    AllValid .topLevel (blockLines table ++ rest) ↔
      (∀ column ∈ table.columns, isAttributeWord (typeName column).toList = true ∨
        startsComment (typeName column).toList = true) ∧ AllValid .topLevel rest := by
  have hopened : judgeLine .topLevel (table.name.toList ++ " \x7b".toList) = (true, .inBlock) := by
    rw [judgeLine, readRelationship?_nameLine hname, readBlockStart?_nameLine hname]
    rfl
  have hclosed : judgeLine .inBlock "\x7d".toList = (true, .topLevel) := by decide
  rw [blockLines, List.append_assoc, List.cons_append,
    allValid_cons_of_judged (isIgnored_of_isEntityName hname _) hopened, and_iff_right rfl,
    allValid_attributeLines, List.singleton_append,
    allValid_cons_of_judged (by decide) hclosed, and_iff_right rfl]

end Block

/-- Relationship lines are valid wherever they stand outside of blocks. -/
theorem allValid_relationshipLines {lines : List (List Char)}
    (hcounts : ∀ line ∈ lines, isIgnored line = false)
    (hread : ∀ line ∈ lines, (readRelationship? line).isSome = true) :
    AllValid .topLevel lines := by
  induction lines with
  | nil => exact trivial
  | cons line rest ih =>
    obtain ⟨hfirst, hcountsRest⟩ := List.forall_mem_cons.1 hcounts
    obtain ⟨hreadFirst, hreadRest⟩ := List.forall_mem_cons.1 hread
    have hjudged : judgeLine .topLevel line = (true, .topLevel) := by
      rw [judgeLine, if_pos hreadFirst]
    exact (allValid_cons_of_judged hfirst hjudged).2 ⟨rfl, ih hcountsRest hreadRest⟩

/-- The types that a written schema lists. -/
def listedTypes (schema : Schema) : List (List Char) :=
  schema.tables.flatMap fun table => (listedTable table).columns.map fun column =>
    (typeName column).toList

theorem forall_mem_listedTypes {schema : Schema} {P : List Char → Prop} :
    (∀ type ∈ listedTypes schema, P type) ↔
      ∀ table ∈ schema.tables.map fittedTable, ∀ column ∈ table.columns,
        P (typeName column).toList := by
  simp only [listedTypes, List.forall_mem_flatMap, List.forall_mem_map]
  rfl

theorem allValid_blocks {tables : List Table} {rest : List (List Char)}
    (hnames : ∀ table ∈ tables, isEntityName table.name.toList = true) :
    AllValid .topLevel (tables.flatMap blockLines ++ rest) ↔
      (∀ table ∈ tables, ∀ column ∈ table.columns,
        isAttributeWord (typeName column).toList = true ∨
          startsComment (typeName column).toList = true) ∧ AllValid .topLevel rest := by
  induction tables with
  | nil => simp
  | cons table more ih =>
    obtain ⟨hname, hmore⟩ := List.forall_mem_cons.1 hnames
    rw [List.flatMap_cons, List.append_assoc, allValid_blockLines hname, ih hmore,
      List.forall_mem_cons, and_assoc]

/-- Of the lines of a block only attribute lines may start comments. -/
theorem noComment_blockLines {table : Table} (hname : isEntityName table.name.toList = true) :
    (∀ line ∈ blockLines table, isIgnored line = true → line = []) ↔
      ∀ column ∈ table.columns, startsComment (typeName column).toList = false := by
  have hcolumn (typeWidth nameWidth : Nat) (column : Column) :
      (isIgnored (attributeLine typeWidth nameWidth column) = true →
        attributeLine typeWidth nameWidth column = []) ↔
          startsComment (typeName column).toList = false := by
    obtain ⟨rest, hline, -⟩ := exists_attributeLine typeWidth nameWidth column
    rw [isIgnored_attributeLine, ← Bool.not_eq_true, ← startsComment]
    exact forall_congr' fun _ => iff_false_intro (by simp [hline])
  rw [blockLines, List.cons_append, List.forall_mem_cons, List.forall_mem_append,
    List.forall_mem_map, List.forall_mem_singleton, isIgnored_of_isEntityName hname]
  simp only [hcolumn]
  exact ⟨fun hall => hall.2.1, fun hall => ⟨by simp, hall, by decide⟩⟩

theorem isSome_of_forall₂ {keys : List HeldKey} {lines : List (List Char)}
    (hlines : List.Forall₂ (fun key line => readRelationship? line = some key.drawn) keys lines) :
    ∀ line ∈ lines, (readRelationship? line).isSome = true := by
  induction hlines with
  | nil => simp
  | cons hfirst _ ih => exact List.forall_mem_cons.2 ⟨by simp [hfirst], ih⟩

/-- The lines of any written schema: the relationship lines are valid and no comments. -/
theorem exists_saidLines (schema : Schema) :
    ∃ rest, (Text.linesOf (schemaText schema).toList).map Text.trim =
        header :: ((schema.tables.map fittedTable).flatMap blockLines ++ rest) ∧
      (∀ line ∈ rest, isIgnored line = true → line = []) ∧ AllValid .topLevel rest := by
  obtain ⟨gap, lines, hsaid, hgap, hcounts, hlines⟩ := says_schemaText schema
  refine ⟨gap ++ lines, hsaid.map_trim_linesOf, List.forall_mem_append.2
    ⟨fun line hmem _ => hgap line hmem, fun line hmem hignored => ?_⟩, ?_⟩
  · rw [hcounts line hmem] at hignored
    cases hignored
  · exact (allValid_append_of_empty hgap).2
      (allValid_relationshipLines hcounts (isSome_of_forall₂ hlines))

theorem isEntityName_of_mem_fittedTables {schema : Schema} :
    ∀ table ∈ schema.tables.map fittedTable, isEntityName table.name.toList = true :=
  List.forall_mem_map.2 fun table _ => isEntityName_entityName table.name

/-! ## Written schemas -/

theorem allValid_schemaText_iff (schema : Schema) :
    AllValid .beforeHeader ((Text.linesOf (schemaText schema).toList).map Text.trim) ↔
      ∀ type ∈ listedTypes schema, isAttributeWord type = true ∨ startsComment type = true := by
  obtain ⟨rest, hlines, -, hrest⟩ := exists_saidLines schema
  have hjudged : judgeLine .beforeHeader header = (true, .topLevel) := by decide
  rw [hlines, allValid_cons_of_judged (by decide) hjudged, and_iff_right rfl,
    allValid_blocks isEntityName_of_mem_fittedTables, and_iff_left hrest, forall_mem_listedTypes]

/-- A written schema is one valid range when each listed type is a word or starts a comment. -/
theorem highlight_schemaText_iff (schema : Schema) :
    highlight (schemaText schema).toList =
        [⟨0, Text.byteLength (schemaText schema).toList, true⟩] ↔
      ∀ type ∈ listedTypes schema, isAttributeWord type = true ∨ startsComment type = true := by
  obtain ⟨rest, hlines, -⟩ := exists_saidLines schema
  have hsome : (schemaText schema).toList ≠ [] := by
    intro hnil
    simp [hnil, Text.linesOf] at hlines
  rw [highlight_eq_valid_iff hsome, allValid_schemaText_iff]

/-- A written schema is read whole when each listed type is a word. -/
theorem isReadWhole_schemaText_iff (schema : Schema) :
    IsReadWhole (schemaText schema).toList ↔
      ∀ type ∈ listedTypes schema, isAttributeWord type = true := by
  obtain ⟨rest, hlines, hcomments, -⟩ := exists_saidLines schema
  have hcomment : (∀ line ∈ (Text.linesOf (schemaText schema).toList).map Text.trim,
      isIgnored line = true → line = []) ↔
        ∀ type ∈ listedTypes schema, startsComment type = false := by
    rw [hlines, List.forall_mem_cons, List.forall_mem_append, and_iff_left hcomments,
      List.forall_mem_flatMap, forall_mem_listedTypes, and_iff_right (by decide)]
    exact forall₂_congr fun table htable =>
      noComment_blockLines (isEntityName_of_mem_fittedTables table htable)
  have htexts : (Line.ofText (schemaText schema).toList).map Line.text =
      header :: ((schema.tables.map fittedTable).flatMap blockLines ++ rest).filter
        fun line => !isIgnored line := by
    rw [map_text_ofText, lineTexts, hlines, List.filter_cons_of_pos (by decide)]
  obtain ⟨first, lines, htext, hfirst, -⟩ := List.map_eq_cons_iff.1 htexts
  rw [isReadWhole_iff htext (by rw [hfirst]; decide), allValid_schemaText_iff, hcomment]
  constructor
  · rintro ⟨hnone, hall⟩ type htype
    exact (hall type htype).resolve_right (by simp [hnone type htype])
  · exact fun hall => ⟨fun type htype => startsComment_of_isAttributeWord (hall type htype),
      fun type htype => Or.inl (hall type htype)⟩

/-- A schema that was read from a diagram lists words only. -/
theorem isAttributeWord_of_mem_listedTypes {config : CategoryConfig} {text : String}
    {schema : Schema} (hread : readSchema? config text = some schema) :
    ∀ type ∈ listedTypes schema, isAttributeWord type = true := by
  rw [forall_mem_listedTypes, List.forall_mem_map]
  intro table htable column hcolumn
  have hlisted := (List.mem_filter.1 hcolumn).1
  rw [typeName, String.toList_ofList]
  exact isAttributeWord_fitType (readSchema?_hasWordTypes hread table htable column hlisted)

/-- A written schema is one valid range exactly when each listed type is a word or starts
a comment, and it is read whole exactly when each is a word.  It is both when it was read
from a diagram. -/
theorem schemaText_readWhole (schema : Schema) :
    (highlight (schemaText schema).toList =
        [⟨0, Text.byteLength (schemaText schema).toList, true⟩] ↔
      ∀ type ∈ listedTypes schema, isAttributeWord type = true ∨ startsComment type = true) ∧
    (IsReadWhole (schemaText schema).toList ↔
      ∀ type ∈ listedTypes schema, isAttributeWord type = true) ∧
    ∀ config text, readSchema? config text = some schema →
      highlight (schemaText schema).toList =
          [⟨0, Text.byteLength (schemaText schema).toList, true⟩] ∧
        IsReadWhole (schemaText schema).toList := by
  refine ⟨highlight_schemaText_iff schema, isReadWhole_schemaText_iff schema,
    fun config text hread => ?_⟩
  have hwords := isAttributeWord_of_mem_listedTypes hread
  exact ⟨(highlight_schemaText_iff schema).2 fun type htype => Or.inl (hwords type htype),
    (isReadWhole_schemaText_iff schema).2 hwords⟩

/-- A script with choices in double quotes, as some dialects allow. -/
def choiceScript : String :=
  "CREATE TABLE t (c ENUM(\x22a\x22, \x22b\x22));"

/-- The quotes stay in the type, and the line of the column cannot be read. -/
theorem schemaText_choiceScript_invalid :
    ∃ schema, Sql.readSchema? .standard choiceScript = some schema ∧
      highlight (schemaText schema).toList ≠
        [⟨0, Text.byteLength (schemaText schema).toList, true⟩] ∧
      ¬ IsReadWhole (schemaText schema).toList := by
  have hall : (Sql.readSchema? .standard choiceScript).any (fun schema =>
      listedTypes schema == ["ENUM(\x22A\x22,\x22B\x22)".toList]) = true := by
    decide +kernel
  obtain ⟨schema, hread, htypes⟩ := (Option.any_eq_true _ _).1 hall
  have htypes := beq_iff_eq.1 htypes
  refine ⟨schema, hread, ?_, ?_⟩
  · rw [Ne, highlight_schemaText_iff, htypes]
    decide
  · rw [isReadWhole_schemaText_iff, htypes]
    decide

end Crowfoot.Mermaid
