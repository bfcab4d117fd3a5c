import Crowfoot.Proofs.Schema.Outline
import Crowfoot.Proofs.Sql.Nesting
import Crowfoot.Proofs.Text.Blanks
import Crowfoot.Sql.TableClause
import Crowfoot.Sql.Writer

/-!
# Written tables

Which tables can be written so that they can be read, which of them without loss,
and the tokens of their definitions.  Names may hold any characters that stay on one
line, for those that are no plain words are quoted.  A type is written as it is: it
can be read if none of its tokens means anything to a definition, and without loss
if it is one word with a size.
-/

namespace Crowfoot

open Sql (isPlainWord Keyword IsNumeral indexWords)

/-- A name is not empty and stays on one line. -/
structure IsWritableName (name : String) : Prop where
  nonempty : name ≠ ""
  oneLine : '\n' ∉ name.toList

/-- One upper-case ASCII word that is no keyword. -/
structure IsTypeWord (word : List Char) : Prop where
  plain : isPlainWord word = true
  upper : ∀ c ∈ word, c.toNat < 128 ∧ c.isLower = false
  noKeyword : Keyword.ofWord? word = none

theorem IsTypeWord.ne_nil {word : List Char} (hword : IsTypeWord word) : word ≠ [] := by
  rintro rfl
  exact Bool.noConfusion hword.plain

/-- A type is a word, perhaps with a list of numerals in parentheses. -/
inductive IsWritableType : List Char → Prop
  | bare {word : List Char} (hword : IsTypeWord word) : IsWritableType word
  | sized {word : List Char} {sizes : List (List Char)} (hword : IsTypeWord word)
      (hsizes : ∀ size ∈ sizes, IsNumeral size) :
      IsWritableType (word ++ ('(' :: [','].intercalate sizes ++ [')']))

theorem IsWritableType.exists_head {text : List Char} (htype : IsWritableType text) :
    ∃ c rest, text = c :: rest ∧ Sql.isWordStart c = true := by
  have hword {word : List Char} (hword : IsTypeWord word) :
      ∃ c rest, word = c :: rest ∧ Sql.isWordStart c = true := by
    have hplain := hword.plain
    cases word with
    | nil => simp [isPlainWord] at hplain
    | cons c rest => exact ⟨c, rest, rfl, (Bool.and_eq_true_iff.1 hplain).1⟩
  cases htype with
  | bare hbare => exact hword hbare
  | sized hsized hsizes =>
    obtain ⟨c, rest, rfl, hstart⟩ := hword hsized
    exact ⟨c, _, rfl, hstart⟩

/-- An ASCII character that is neither a small letter nor a blank. -/
def IsTypeChar (c : Char) : Prop :=
  c.toNat < 128 ∧ c.isLower = false ∧ Text.isBlank c = false

theorem IsTypeWord.isTypeChar {word : List Char} (hword : IsTypeWord word) :
    ∀ c ∈ word, IsTypeChar c := by
  intro c hmem
  obtain ⟨hascii, hlower⟩ := hword.upper c hmem
  refine ⟨hascii, hlower, ?_⟩
  have hchar : Sql.isWordChar c = true := Sql.isWordChar_of_isPlainWord hword.plain c hmem
  revert hchar
  exact Text.forall_ascii (P := fun c => Sql.isWordChar c = true → Text.isBlank c = false)
    (by decide) hascii

theorem isTypeChar_of_isNumeral {numeral : List Char} (hnumeral : IsNumeral numeral) :
    ∀ c ∈ numeral, IsTypeChar c := by
  have hdigit {c : Char} (hc : c.isDigit = true) : IsTypeChar c := by
    have hrange := Text.toNat_of_isDigit hc
    have hascii : c.toNat < 128 := by omega
    refine ⟨hascii, ?_, Text.isBlank_of_isAlphanumeric (Text.isAlphanumeric_of_isDigit hc)⟩
    exact Text.forall_ascii (P := fun c => c.isDigit = true → c.isLower = false) (by decide)
      hascii hc
  cases hnumeral with
  | whole hsome hdigits => exact fun c hmem => hdigit (hdigits c hmem)
  | fraction hsome hdigits hplace hplaces =>
    refine List.forall_mem_append.2 ⟨fun c hmem => hdigit (hdigits c hmem), ?_⟩
    exact List.forall_mem_cons.2 ⟨⟨by decide, by decide, by decide⟩,
      fun c hmem => hdigit (hplaces c hmem)⟩

theorem IsWritableType.isTypeChar {text : List Char} (htype : IsWritableType text) :
    ∀ c ∈ text, IsTypeChar c := by
  have hmark {c : Char} (hc : c ∈ ['(', ',', ')']) : IsTypeChar c := by
    simp only [List.mem_cons, List.not_mem_nil, or_false] at hc
    rcases hc with rfl | rfl | rfl <;> exact ⟨by decide, by decide, by decide⟩
  cases htype with
  | bare hword => exact hword.isTypeChar
  | @sized word sizes hword hsizes =>
    have hlist : ∀ c ∈ [','].intercalate sizes, IsTypeChar c :=
      Text.forall_mem_intercalate (by simpa using hmark (by simp))
        fun size hmem => isTypeChar_of_isNumeral (hsizes size hmem)
    refine List.forall_mem_append.2 ⟨hword.isTypeChar, List.forall_mem_append.2 ⟨?_, ?_⟩⟩
    · exact List.forall_mem_cons.2 ⟨hmark (by simp), hlist⟩
    · exact List.forall_mem_singleton.2 (hmark (by simp))

/-- The column of a base table can be written without loss. -/
structure Column.IsWritable (tables : List Table) (column : Column) : Prop where
  name : IsWritableName column.name
  notVirtual : column.isVirtual = false
  notIndexWord : ∀ word ∈ indexWords, Text.sameName column.name word = false
  type : IsWritableType column.type.toList
  keyNotNull : column.isPrimaryKey = true → column.nullability = .notNull
  keyNotUnique : column.isPrimaryKey = true → column.isUnique = false
  noLineage : column.sourceTable = none ∧ column.sourceColumn = none
  consistent : column.IsConsistent
  resolved : ∀ reference ∈ column.references, HasColumn tables reference.table reference.column

/-- Base tables that can be written without loss. -/
structure AreWritable (tables : List Table) : Prop where
  nonempty : tables ≠ []
  wellNamed : WellNamed tables
  noViews : ∀ table ∈ tables, table.isView = false
  names : ∀ table ∈ tables, IsWritableName table.name
  columns : ∀ table ∈ tables, ∀ column ∈ table.columns, column.IsWritable tables

namespace Sql

/-! ## Types -/

/-- The tokens of a type. -/
def typeSpellings (type : String) : List Spelling :=
  (spellings type.toList).dropLast

theorem Spells.dropLast_spellings {text : List Char} {written : List Spelling}
    (htext : Spells text written) : (spellings text).dropLast = written := by
  have hall := htext [] delimits_nil
  rw [List.append_nil, spellings_nil] at hall
  rw [hall, List.dropLast_concat]

/-- A type that reads as a name a type may start with and tokens that are passed
over, whatever is written behind it. -/
structure IsLegibleType (type : String) : Prop where
  oneLine : '\n' ∉ type.toList
  spelled : ∃ first rest, Spells type.toList (first :: rest) ∧
    (∃ name, first.token.typeName? = some name) ∧ IsFiller false rest

section Legible

variable {type : String} (htype : IsLegibleType type)

include htype

theorem spells_type : Spells type.toList (typeSpellings type) := by
  obtain ⟨first, rest, hspells, -⟩ := htype.spelled
  rw [typeSpellings, hspells.dropLast_spellings]
  exact hspells

theorem IsLegibleType.exists_cons : ∃ first rest, typeSpellings type = first :: rest ∧
    (∃ name, first.token.typeName? = some name) ∧ IsFiller false rest := by
  obtain ⟨first, rest, hspells, hname, hrest⟩ := htype.spelled
  exact ⟨first, rest, hspells.dropLast_spellings, hname, hrest⟩

theorem IsLegibleType.isFiller : IsFiller false (typeSpellings type) := by
  obtain ⟨first, rest, hwritten, ⟨name, hname⟩, hrest⟩ := htype.exists_cons
  rw [hwritten]
  refine .token ?_ hrest
  rw [Token.typeName?.eq_def] at hname
  split at hname
  · rename_i htoken
    rw [htoken]
    exact ⟨by simp, by simp, by simp, by simp [IsStop]⟩
  · rename_i htoken
    rw [htoken]
    exact ⟨by simp, by simp, by simp, by simp [IsStop]⟩
  · simp at hname

/-- A type that can be read is not blank. -/
theorem IsLegibleType.exists_mem : ∃ c ∈ type.toList, Text.isBlank c = false := by
  by_contra hnone
  have hblank : ∀ c ∈ type.toList, Text.isBlank c = true := by simpa using hnone
  obtain ⟨first, rest, hspells, -⟩ := htype.spelled
  have hall := hspells [] delimits_nil
  rw [spellings_blanks hblank, spellings_nil] at hall
  simp at hall

end Legible

theorem spells_bareType {word : List Char} (hword : IsTypeWord word) :
    Spells word [⟨.word word, word⟩] := by
  have hspells := spells_word hword.plain
  rw [wordSpelling, Token.ofWord, hword.noKeyword] at hspells
  exact hspells

/-- The tokens of the list of sizes of a type. -/
def sizeSpellings (sizes : List (List Char)) : List Spelling :=
  [commaMark].intercalate (sizes.map fun size => [numeralSpelling size])

theorem isFiller_sizeSpellings (sizes : List (List Char)) :
    IsFiller true (sizeSpellings sizes) := by
  refine isFiller_of_forall (Text.forall_mem_intercalate ?_ ?_)
  · exact List.forall_mem_singleton.2 ⟨by simp [commaMark], by simp [commaMark],
      by simp [commaMark], by simp⟩
  · intro item hitem
    obtain ⟨size, -, rfl⟩ := List.mem_map.1 hitem
    exact List.forall_mem_singleton.2 ⟨by simp [numeralSpelling], by simp [numeralSpelling],
      by simp [numeralSpelling], by simp⟩

theorem spells_sizedType {word : List Char} {sizes : List (List Char)} (hword : IsTypeWord word)
    (hsizes : ∀ size ∈ sizes, IsNumeral size) :
    Spells (word ++ ('(' :: [','].intercalate sizes ++ [')']))
      (⟨.word word, word⟩ :: (openMark :: sizeSpellings sizes ++ [closeMark])) := by
  have hlist : Spells ([','].intercalate (sizes.map id)) (sizeSpellings sizes) :=
    Spells.intercalate (by simp) fun size hmem => spells_numeral (hsizes size hmem)
  rw [List.map_id] at hlist
  exact (spells_bareType hword).append hlist.group (delimits_cons (by decide) _)

/-- The tokens of a type are its word and, if it has sizes, a group of numerals. -/
theorem typeSpellings_cases {type : String} (htype : IsWritableType type.toList) :
    (∃ word, IsTypeWord word ∧ type.toList = word ∧ typeSpellings type = [⟨.word word, word⟩]) ∨
      ∃ word sizes, IsTypeWord word ∧ (∀ size ∈ sizes, IsNumeral size) ∧
        type.toList = word ++ ('(' :: [','].intercalate sizes ++ [')']) ∧
          typeSpellings type =
            ⟨.word word, word⟩ :: (openMark :: sizeSpellings sizes ++ [closeMark]) := by
  rw [typeSpellings]
  generalize type.toList = text at htype
  cases htype with
  | bare hword =>
    exact Or.inl ⟨text, hword, rfl, (spells_bareType hword).dropLast_spellings⟩
  | @sized word sizes hword hsizes =>
    exact Or.inr ⟨word, sizes, hword, hsizes, rfl,
      (spells_sizedType hword hsizes).dropLast_spellings⟩

/-- The type of a column that is added for want of others can be written. -/
theorem isWritableType_int : IsWritableType "INT".toList :=
  .bare ⟨by decide +kernel, by decide +kernel, by decide +kernel⟩

theorem lineFeed_notMem_type {text : List Char} (htype : IsWritableType text) : '\n' ∉ text := by
  intro hmem
  have hblank := (htype.isTypeChar '\n' hmem).2.2
  revert hblank
  decide

/-- A word with or without sizes can be read. -/
theorem isLegibleType_of_isWritableType {type : String} (htype : IsWritableType type.toList) :
    IsLegibleType type where
  oneLine := lineFeed_notMem_type htype
  spelled := by
    have hname {word : List Char} (hword : IsTypeWord word) :
        ∃ name, (Token.word word).typeName? = some name :=
      ⟨word, by simp [Token.typeName?, hword.ne_nil]⟩
    generalize type.toList = text at htype
    cases htype with
    | bare hword => exact ⟨_, [], spells_bareType hword, hname hword, .nil⟩
    | @sized word sizes hword hsizes =>
      exact ⟨_, _, spells_sizedType hword hsizes, hname hword,
        .group (isFiller_sizeSpellings sizes) .nil⟩

theorem typeText_eq {column : Column} (htype : IsLegibleType column.type) :
    typeText column = column.type := by
  obtain ⟨c, hmem, hc⟩ := htype.exists_mem
  have hne : Text.trim column.type.toList ≠ [] := by
    intro hnil
    rw [Text.isBlank_of_trim_eq_nil hnil c hmem] at hc
    exact Bool.noConfusion hc
  rw [typeText, if_neg (by simpa using hne)]

end Sql

/-- The column of a base table can be written so that it can be read. -/
structure Column.IsLegible (column : Column) : Prop where
  name : IsWritableName column.name
  notVirtual : column.isVirtual = false
  notIndexWord : ∀ word ∈ indexWords, Text.sameName column.name word = false
  type : Sql.IsLegibleType column.type
  target : ∀ reference ∈ column.references,
    IsWritableName reference.table ∧ IsWritableName reference.column

/-- Base tables that can be written so that they can be read. -/
structure AreLegible (tables : List Table) : Prop where
  nonempty : tables ≠ []
  wellNamed : WellNamed tables
  noViews : ∀ table ∈ tables, table.isView = false
  names : ∀ table ∈ tables, IsWritableName table.name
  columns : ∀ table ∈ tables, ∀ column ∈ table.columns, column.IsLegible

theorem AreWritable.areLegible {tables : List Table} (hwritable : AreWritable tables) :
    AreLegible tables where
  nonempty := hwritable.nonempty
  wellNamed := hwritable.wellNamed
  noViews := hwritable.noViews
  names := hwritable.names
  columns table htable column hcolumn := by
    obtain ⟨hname, hdefined, hindex, htype, -, -, -, -, hresolved⟩ :=
      hwritable.columns table htable column hcolumn
    refine ⟨hname, hdefined, hindex, Sql.isLegibleType_of_isWritableType htype, ?_⟩
    intro reference hreference
    obtain ⟨target, htarget, htargetName, key, hkey, hkeyName⟩ := hresolved reference hreference
    exact ⟨htargetName ▸ hwritable.names target htarget,
      hkeyName ▸ (hwritable.columns target htarget key hkey).name⟩

namespace Sql

/-! ## Columns -/

/-- The tokens that say whether a column may lack a value. -/
def nullabilitySpellings : Nullability → List Spelling
  | .notNull => [keywordSpelling .not, keywordSpelling .null]
  | .nullable => [keywordSpelling .null]
  | .unknown => []

/-- The tokens of the constraints of a column. -/
def constraintSpellings (column : Column) : List Spelling :=
  if column.isPrimaryKey then
    [keywordSpelling .primary, keywordSpelling .key]
  else
    (if column.isUnique then [keywordSpelling .unique] else []) ++
      nullabilitySpellings column.nullability

/-- The tokens of the reference of a column. -/
def referenceSpellings (column : Column) : List Spelling :=
  match column.references with
  | none => []
  | some reference =>
    [keywordSpelling .references, nameSpelling reference.table, openMark,
      nameSpelling reference.column, closeMark]

/-- The tokens of a column definition. -/
def columnSpellings (column : Column) : List Spelling :=
  nameSpelling column.name :: (typeSpellings column.type ++
    (constraintSpellings column ++ referenceSpellings column))

theorem spells_keywords (first second : Keyword) :
    Spells (' ' :: (first.spelling.toList ++ ' ' :: second.spelling.toList))
      [keywordSpelling first, keywordSpelling second] :=
  ((spells_keyword first).append (spells_keyword second).space
    (delimits_cons (by decide) _)).space

theorem spells_constraintText (column : Column) :
    Spells (constraintText column).toList (constraintSpellings column) ∧
      Delimits (constraintText column).toList := by
  rw [constraintText, constraintSpellings]
  split
  · exact ⟨spells_keywords .primary .key, delimits_cons (by decide) _⟩
  · have hunique : Spells (if column.isUnique then " UNIQUE" else "").toList
        (if column.isUnique then [keywordSpelling .unique] else []) ∧
        Delimits (if column.isUnique then " UNIQUE" else "").toList := by
      split
      · exact ⟨(spells_keyword .unique).space, delimits_cons (by decide) _⟩
      · exact ⟨spells_nil, delimits_nil⟩
    have hnull (nullability : Nullability) :
        Spells (match nullability with
          | .notNull => " NOT NULL"
          | .nullable => " NULL"
          | .unknown => "").toList (nullabilitySpellings nullability) ∧
        Delimits (match nullability with
          | .notNull => " NOT NULL"
          | .nullable => " NULL"
          | .unknown => "").toList := by
      cases nullability with
      | notNull => exact ⟨spells_keywords .not .null, delimits_cons (by decide) _⟩
      | nullable => exact ⟨(spells_keyword .null).space, delimits_cons (by decide) _⟩
      | unknown => exact ⟨spells_nil, delimits_nil⟩
    obtain ⟨hspells, hdelimits⟩ := hnull column.nullability
    rw [String.toList_append]
    exact ⟨hunique.1.append hspells hdelimits, hunique.2.append hdelimits⟩

theorem referenceText_some {column : Column} {reference : ColumnReference}
    (hreference : column.references = some reference) :
    (referenceText column).toList =
      ' ' :: (Keyword.references.spelling.toList ++ ' ' :: ((quoteName reference.table).toList ++
        ('(' :: (quoteName reference.column).toList ++ [')']))) := by
  simp [referenceText, hreference, Keyword.spelling]

theorem spells_referenceText (column : Column) :
    Spells (referenceText column).toList (referenceSpellings column) ∧
      Delimits (referenceText column).toList := by
  cases hreference : column.references with
  | none =>
    rw [referenceText, referenceSpellings, hreference]
    exact ⟨spells_nil, delimits_nil⟩
  | some reference =>
    rw [referenceText_some hreference, referenceSpellings, hreference]
    refine ⟨?_, delimits_cons (by decide) _⟩
    have htarget := (spells_quoteName reference.table).append
      (spells_quoteName reference.column).group (delimits_cons (by decide) _)
    exact ((spells_keyword .references).append htarget.space (delimits_cons (by decide) _)).space

theorem columnText_toList (width : Nat) {column : Column} (htype : IsLegibleType column.type) :
    (columnText width column).toList =
      List.replicate 4 ' ' ++ ((quoteName column.name).toList ++
        (List.replicate (width - Text.displayWidth (quoteName column.name)) ' ' ++
          ' ' :: (column.type.toList ++
            ((constraintText column).toList ++ (referenceText column).toList)))) := by
  simp [columnText, Text.padTo, typeText_eq htype, List.replicate]

/-- A written column reads as its name, its type and its constraints. -/
theorem spells_columnText (width : Nat) {column : Column} (htype : IsLegibleType column.type) :
    Spells (columnText width column).toList (columnSpellings column) := by
  obtain ⟨hconstraint, hconstraintStart⟩ := spells_constraintText column
  obtain ⟨hreference, hreferenceStart⟩ := spells_referenceText column
  have htail := (spells_type htype).append (hconstraint.append hreference hreferenceStart)
    (hconstraintStart.append hreferenceStart)
  have hpadding (count : Nat) (text : List Char) :
      Delimits (List.replicate count ' ' ++ ' ' :: text) := by
    cases count with
    | zero => exact delimits_cons (by decide) _
    | succ count => exact delimits_cons (by decide) _
  rw [columnText_toList width htype]
  exact ((spells_quoteName column.name).append
    (htail.space.blanks fun _ => Text.isBlank_of_mem_spaces) (hpadding _ _)).blanks
      fun _ => Text.isBlank_of_mem_spaces

/-! ## Tables -/

/-- The tokens of a table definition. -/
def tableSpellings (table : Table) : List Spelling :=
  keywordSpelling .create :: ([keywordSpelling .table, nameSpelling table.name] ++
    (openMark :: [commaMark].intercalate (table.columns.map columnSpellings) ++ [closeMark])) ++
      [endMark]

theorem definedColumns_eq {table : Table}
    (hdefined : ∀ column ∈ table.columns, column.isVirtual = false) :
    definedColumns table = table.columns :=
  List.filter_eq_self.2 fun column hmem => by rw [hdefined column hmem, Bool.not_false]

theorem tableText_toList {table : Table} (hsome : table.columns ≠ [])
    (hdefined : ∀ column ∈ table.columns, column.isVirtual = false) :
    ∃ width, (tableText table).toList =
      Keyword.create.spelling.toList ++ ' ' :: (Keyword.table.spelling.toList ++
        ' ' :: ((quoteName table.name).toList ++ ' ' :: ('(' :: ('\n' ::
          [',', '\n'].intercalate (table.columns.map fun column =>
            (columnText width column).toList) ++ ['\n']) ++ [')'] ++ [';', '\n']))) := by
  refine ⟨Text.widest (table.columns.map fun column => quoteName column.name), ?_⟩
  rw [tableText, definedColumns_eq hdefined]
  simp [hsome, String.toList_intercalate, Function.comp_def, Keyword.spelling]

theorem spells_tableText {table : Table} (hsome : table.columns ≠ [])
    (hcolumns : ∀ column ∈ table.columns, column.IsLegible) :
    Spells (tableText table).toList (tableSpellings table) := by
  obtain ⟨width, htext⟩ := tableText_toList hsome fun column hmem =>
    (hcolumns column hmem).notVirtual
  have hlist : Spells
      ([',', '\n'].intercalate (table.columns.map fun column => (columnText width column).toList))
      ([commaMark].intercalate (table.columns.map columnSpellings)) :=
    Spells.intercalate (List.forall_mem_singleton.2 (by decide)) fun column hmem =>
      spells_columnText width (hcolumns column hmem).type
  have hinner : Spells ('\n' :: [',', '\n'].intercalate (table.columns.map fun column =>
      (columnText width column).toList) ++ ['\n'])
      ([commaMark].intercalate (table.columns.map columnSpellings)) := by
    have hend := hlist.lineFeed.append spells_nil.lineFeed (delimits_cons (by decide) [])
    rwa [List.append_nil] at hend
  have hend : Spells [';', '\n'] [endMark] := by
    intro rest _
    simp
  have hgroup := (hinner.group.append hend (delimits_cons (by decide) _)).space
  have hname := ((spells_quoteName table.name).append hgroup (delimits_cons (by decide) _)).space
  have htable := ((spells_keyword .table).append hname (delimits_cons (by decide) _)).space
  have hcreate := (spells_keyword .create).append htable (delimits_cons (by decide) _)
  rw [htext]
  simpa [tableSpellings] using hcreate

/-! ## Schemas -/

theorem schemaText_toList {schema : Schema}
    (hviews : ∀ table ∈ schema.tables, table.isView = false) :
    (schemaText schema).toList =
      ['\n'].intercalate (schema.tables.map fun table => (tableText table).toList) := by
  have hnone : schema.tables.filter Table.isView = [] :=
    List.filter_eq_nil_iff.2 fun table hmem => by simp [hviews table hmem]
  have hall : (schema.tables.filter fun table => !table.isView) = schema.tables :=
    List.filter_eq_self.2 fun table hmem => by simp [hviews table hmem]
  simp [schemaText, hnone, hall, String.toList_intercalate, Function.comp_def]

theorem spells_tableTexts {tables : List Table} (text : Table → List Char)
    (htables : ∀ table ∈ tables, Spells (text table) (tableSpellings table)) :
    Spells (['\n'].intercalate (tables.map text)) (tables.map tableSpellings).flatten := by
  induction tables with
  | nil => exact spells_nil
  | cons first more ih =>
    obtain ⟨hfirst, hmore⟩ := List.forall_mem_cons.1 htables
    cases more with
    | nil => simpa using hfirst
    | cons second others =>
      have hall := hfirst.append (ih hmore).lineFeed (delimits_cons (by decide) _)
      simpa [List.intercalate_cons_cons] using hall

/-- Written base tables read as their definitions one after the other. -/
theorem spellings_schemaText {schema : Schema} (hlegible : AreLegible schema.tables) :
    spellings (schemaText schema).toList =
      (schema.tables.map tableSpellings).flatten ++ [⟨.eof, []⟩] := by
  have hspells := spells_tableTexts (fun table => (tableText table).toList)
    fun table hmem => spells_tableText (hlegible.wellNamed.nonempty table hmem)
      (hlegible.columns table hmem)
  have hall := hspells [] delimits_nil
  rwa [List.append_nil, spellings_nil, ← schemaText_toList hlegible.noViews] at hall

end Sql

end Crowfoot
