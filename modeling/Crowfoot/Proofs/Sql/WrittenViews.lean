import Crowfoot.Proofs.Sql.WrittenLines
import Crowfoot.Sql.Select

/-!
# Written views

A view is written as the selection of its columns from the tables it is linked
to, with `NULL` for a column that comes from nowhere.  What is written is a view
definition, and its tokens are those of the names in it.  The names are bare
words, so that none of them is quoted and none is read as part of the syntax
around it.
-/

namespace Crowfoot

open Sql (isPlainWord Keyword fromEndings indexWords)

/-- Words that are read as syntax where a written schema has a name. -/
def reservedWords : List String :=
  "ALL" :: fromEndings ++ indexWords

/-- An ASCII word that is read as a name wherever a schema is written. -/
structure IsBareName (name : String) : Prop where
  plain : isPlainWord name.toList = true
  ascii : ∀ c ∈ name.toList, c.toNat < 128
  noKeyword : Keyword.ofWord? name.toList = none
  notLinking : Column.linkMark.toList.isPrefixOf name.toList = false
  notReserved : ∀ word ∈ reservedWords, Text.sameName name word = false

instance (name : String) : Decidable (IsBareName name) :=
  decidable_of_iff (isPlainWord name.toList = true ∧ (∀ c ∈ name.toList, c.toNat < 128) ∧
      Keyword.ofWord? name.toList = none ∧ Column.linkMark.toList.isPrefixOf name.toList = false ∧
      ∀ word ∈ reservedWords, Text.sameName name word = false)
    ⟨fun ⟨hplain, hascii, hnoKeyword, hnotLinking, hnotReserved⟩ =>
      ⟨hplain, hascii, hnoKeyword, hnotLinking, hnotReserved⟩,
    fun hname =>
      ⟨hname.plain, hname.ascii, hname.noKeyword, hname.notLinking, hname.notReserved⟩⟩

namespace IsBareName

variable {name : String}

theorem ne_empty (hname : IsBareName name) : name ≠ "" := by
  rintro rfl
  exact Bool.noConfusion hname.plain

theorem lineFeed_notMem (hname : IsBareName name) : '\n' ∉ name.toList := by
  intro hmem
  have hword := Sql.isWordChar_of_isPlainWord hname.plain '\n' hmem
  revert hword
  decide +kernel

theorem isWritableName (hname : IsBareName name) : IsWritableName name :=
  ⟨hname.ne_empty, hname.lineFeed_notMem⟩

theorem quoteName_eq (hname : IsBareName name) : Sql.quoteName name = name := by
  have hbare : (isPlainWord name.toList && (Keyword.ofWord? name.toList).isNone) = true := by
    rw [hname.plain, hname.noKeyword]
    rfl
  rw [Sql.quoteName, Sql.quoteChars, if_pos hbare, String.ofList_toList]

theorem nameSpelling_eq (hname : IsBareName name) :
    Sql.nameSpelling name = ⟨.word name.toList, name.toList⟩ := by
  have hbare : (isPlainWord name.toList && (Keyword.ofWord? name.toList).isNone) = true := by
    rw [hname.plain, hname.noKeyword]
    rfl
  rw [Sql.nameSpelling, Sql.quoteChars, if_pos hbare, if_pos hbare]

end IsBareName

namespace Sql

/-! ## View definitions -/

/-- What a column of a view is written as. -/
def selectionOf (column : Column) : SelectItem :=
  match column.sourceTable, column.sourceColumn with
  | some table, some source =>
    ⟨.column (some table) source, if source = column.name then none else some column.name⟩
  | _, _ => ⟨.computed "NULL".toList, some column.name⟩

/-- The definition that a view is written as. -/
def viewDefinitionOf (view : Table) : ViewDefinition where
  name := view.name
  items := (definedColumns view).map selectionOf
  sources := (viewSources view).map (⟨·, none⟩)

/-- An item of a select list as a view is written with it. -/
inductive IsWrittenItem : SelectItem → Prop
  | derived {table source : String} {aliasName : Option String} (htable : IsBareName table)
      (hsource : IsBareName source) (halias : ∀ name ∈ aliasName, IsBareName name) :
      IsWrittenItem ⟨.column (some table) source, aliasName⟩
  | missing {name : String} (hname : IsBareName name) :
      IsWrittenItem ⟨.computed "NULL".toList, some name⟩

/-- A view definition of bare names, as a view is written with it. -/
structure IsWrittenView (definition : ViewDefinition) : Prop where
  name : IsBareName definition.name
  someItem : definition.items ≠ []
  items : ∀ item ∈ definition.items, IsWrittenItem item
  sources : ∀ source ∈ definition.sources, IsBareName source.table ∧ source.aliasName = none

/-! ## Tokens -/

def dotMark : Spelling := ⟨.dot, ['.']⟩

@[simp]
theorem spellings_dot (rest : List Char) : spellings ('.' :: rest) = dotMark :: spellings rest :=
  spellings_cons (by decide) rest

/-- The tokens of the alias of an item. -/
def aliasSpellings : Option String → List Spelling
  | some name => [keywordSpelling .as, nameSpelling name]
  | none => []

/-- The tokens of an item of a select list. -/
def itemSpellings (item : SelectItem) : List Spelling :=
  (match item.expression with
    | .column (some table) source => [nameSpelling table, dotMark, nameSpelling source]
    | _ => [keywordSpelling .null]) ++ aliasSpellings item.aliasName

/-- The tokens of a view definition. -/
def viewSpellings (definition : ViewDefinition) : List Spelling :=
  keywordSpelling .create :: (keywordSpelling .view :: nameSpelling definition.name ::
    keywordSpelling .as :: keywordSpelling .select ::
      ([commaMark].intercalate (definition.items.map itemSpellings) ++
        keywordSpelling .fromClause :: [commaMark].intercalate
          (definition.sources.map fun source => [nameSpelling source.table]))) ++ [endMark]

/-- The name of a table stands in front of the dot of a column. -/
theorem spells_qualified {table source : String} (htable : IsBareName table) :
    Spells ((quoteName table).toList ++ '.' :: (quoteName source).toList)
      [nameSpelling table, dotMark, nameSpelling source] := by
  intro rest hrest
  have hsource := spells_quoteName source rest hrest
  rw [htable.quoteName_eq, htable.nameSpelling_eq, List.append_assoc, List.cons_append]
  have hplain := htable.plain
  have hkeyword := htable.noKeyword
  generalize table.toList = word at hplain hkeyword
  cases word with
  | nil => simp [isPlainWord] at hplain
  | cons c tail =>
    obtain ⟨hstart, htail⟩ := Bool.and_eq_true_iff.1 hplain
    rw [List.all_eq_true] at htail
    have hcut : cutWord (tail ++ '.' :: ((quoteName source).toList ++ rest)) =
        ⟨tail, '.' :: ((quoteName source).toList ++ rest)⟩ := by
      have hdot : isWordChar '.' = false := by decide +kernel
      rw [cutWord, List.takeWhile_append_of_pos htail, List.dropWhile_append_of_pos htail]
      simp [hdot]
    have htoken : Token.ofWord (c :: tail) = .word (c :: tail) := by
      rw [Token.ofWord, hkeyword]
    rw [List.cons_append, spellings_cons (endsGap_of_isWordStart hstart), readToken_word hstart,
      hcut, Cut.keep_front, Cut.keep_rest, htoken, spellings_dot, hsource]
    rfl

theorem spells_alias (name : String) :
    Spells (' ' :: (Keyword.as.spelling.toList ++ ' ' :: (quoteName name).toList))
      (aliasSpellings (some name)) :=
  ((spells_keyword .as).append (spells_quoteName name).space (delimits_cons (by decide) _)).space

theorem selectText_derived {column : Column} {table source : String}
    (htable : column.sourceTable = some table) (hsource : column.sourceColumn = some source) :
    (selectText column).toList = (quoteName table).toList ++ '.' :: (quoteName source).toList ++
      if source = column.name then []
      else ' ' :: (Keyword.as.spelling.toList ++ ' ' :: (quoteName column.name).toList) := by
  by_cases hname : source = column.name <;>
    simp [selectText, htable, hsource, hname, Keyword.spelling]

theorem selectionOf_cases (column : Column) :
    (∃ table source, column.sourceTable = some table ∧ column.sourceColumn = some source ∧
      selectionOf column = ⟨.column (some table) source,
        if source = column.name then none else some column.name⟩) ∨
      selectionOf column = ⟨.computed "NULL".toList, some column.name⟩ ∧
        (selectText column).toList = Keyword.null.spelling.toList ++
          ' ' :: (Keyword.as.spelling.toList ++ ' ' :: (quoteName column.name).toList) := by
  cases htable : column.sourceTable with
  | none => exact Or.inr (by simp [selectionOf, selectText, htable, Keyword.spelling])
  | some table =>
    cases hsource : column.sourceColumn with
    | none => exact Or.inr (by simp [selectionOf, selectText, htable, hsource, Keyword.spelling])
    | some source => exact Or.inl ⟨table, source, rfl, rfl, by simp [selectionOf, htable, hsource]⟩

theorem isWrittenItem_selectionOf {column : Column} (hname : IsBareName column.name)
    (htable : ∀ table ∈ column.sourceTable, IsBareName table)
    (hsource : ∀ source ∈ column.sourceColumn, IsBareName source) :
    IsWrittenItem (selectionOf column) := by
  rcases selectionOf_cases column with ⟨table, source, hsome, hsomeColumn, hselection⟩ |
    ⟨hselection, -⟩
  · rw [hselection]
    refine .derived (htable table hsome) (hsource source hsomeColumn) fun name hmem => ?_
    split at hmem
    · cases hmem
    · cases hmem
      exact hname
  · rw [hselection]
    exact .missing hname

/-- The definition of a view is one of bare names if its own name, those of its columns
and those it takes them from are. -/
theorem isWrittenView_viewDefinitionOf {view : Table} (hname : IsBareName view.name)
    (hsome : (definedColumns view).map selectionOf ≠ [])
    (hcolumns : ∀ column ∈ definedColumns view, IsBareName column.name ∧
      (∀ table ∈ column.sourceTable, IsBareName table) ∧
        ∀ source ∈ column.sourceColumn, IsBareName source)
    (hsources : ∀ source ∈ viewSources view, IsBareName source) :
    IsWrittenView (viewDefinitionOf view) where
  name := hname
  someItem := hsome
  items := by
    rw [viewDefinitionOf, List.forall_mem_map]
    intro column hcolumn
    obtain ⟨hown, htable, hsource⟩ := hcolumns column hcolumn
    exact isWrittenItem_selectionOf hown htable hsource
  sources := by
    rw [viewDefinitionOf, List.forall_mem_map]
    exact fun source hsource => ⟨hsources source hsource, rfl⟩

/-- A written column of a view reads as its item. -/
theorem spells_selectText {column : Column} (hitem : IsWrittenItem (selectionOf column)) :
    Spells (selectText column).toList (itemSpellings (selectionOf column)) := by
  rcases selectionOf_cases column with ⟨table, source, htable, hsource, hselection⟩ |
    ⟨hselection, htext⟩
  · rw [hselection] at hitem ⊢
    rw [selectText_derived htable hsource]
    cases hitem with
    | derived hbare _ _ =>
      by_cases hname : source = column.name
      · rw [if_pos hname, if_pos hname, List.append_nil]
        exact spells_qualified hbare
      · rw [if_neg hname, if_neg hname]
        exact (spells_qualified hbare).append (spells_alias column.name)
          (delimits_cons (by decide) _)
  · rw [hselection, htext]
    exact (spells_keyword .null).append (spells_alias column.name) (delimits_cons (by decide) _)

/-- The text of a view up to its semicolon. -/
def viewBody (view : Table) : List Char :=
  Keyword.create.spelling.toList ++ ' ' :: (Keyword.view.spelling.toList ++
    ' ' :: ((quoteName view.name).toList ++ ' ' :: (Keyword.as.spelling.toList ++
      ' ' :: (Keyword.select.spelling.toList ++ ' ' :: ([',', ' '].intercalate
        ((definedColumns view).map fun column => (selectText column).toList) ++
          ' ' :: (Keyword.fromClause.spelling.toList ++ ' ' :: [',', ' '].intercalate
            ((viewSources view).map fun source => (quoteName source).toList)))))))

theorem viewText_toList {view : Table} (hsome : (definedColumns view).map selectionOf ≠ []) :
    (viewText view).toList = viewBody view ++ [';', '\n'] := by
  have hitems : ¬ ((definedColumns view).map selectText).isEmpty = true := by
    simpa using hsome
  unfold viewText
  simp [viewBody, hitems, String.toList_intercalate, Function.comp_def, Keyword.spelling]

/-- A written view reads as its definition, whatever follows it. -/
theorem spellings_viewText {view : Table} (hwritten : IsWrittenView (viewDefinitionOf view))
    (rest : List Char) :
    spellings ((viewText view).toList ++ rest) =
      viewSpellings (viewDefinitionOf view) ++ spellings rest := by
  have hblank : ∀ c ∈ [' '], Text.isBlank c = true := List.forall_mem_singleton.2 (by decide)
  have hitems : Spells
      ([',', ' '].intercalate ((definedColumns view).map fun column => (selectText column).toList))
      ([commaMark].intercalate ((definedColumns view).map fun column =>
        itemSpellings (selectionOf column))) :=
    Spells.intercalate hblank fun column hmem =>
      spells_selectText (hwritten.items _ (List.mem_map_of_mem hmem))
  have hsources : Spells
      ([',', ' '].intercalate ((viewSources view).map fun source => (quoteName source).toList))
      ([commaMark].intercalate ((viewSources view).map fun source => [nameSpelling source])) :=
    Spells.intercalate hblank fun source _ => spells_quoteName source
  have hfrom := (spells_keyword .fromClause).append hsources.space (delimits_cons (by decide) _)
  have hselect := (spells_keyword .select).append
    (hitems.append hfrom.space (delimits_cons (by decide) _)).space (delimits_cons (by decide) _)
  have has := (spells_keyword .as).append hselect.space (delimits_cons (by decide) _)
  have hname := (spells_quoteName view.name).append has.space (delimits_cons (by decide) _)
  have hview := (spells_keyword .view).append hname.space (delimits_cons (by decide) _)
  have hbody := (spells_keyword .create).append hview.space (delimits_cons (by decide) _)
    (';' :: '\n' :: rest) (delimits_cons (by decide) _)
  rw [viewText_toList hwritten.someItem, List.append_assoc]
  simpa [viewBody, viewSpellings, viewDefinitionOf, Function.comp_def] using hbody

/-! ## Lines -/

theorem lineFeed_notMem_selectText {column : Column} (hitem : IsWrittenItem (selectionOf column)) :
    '\n' ∉ (selectText column).toList := by
  have halias {name : String} (hname : IsBareName name) :
      '\n' ∉ ' ' :: (Keyword.as.spelling.toList ++ ' ' :: (quoteName name).toList) := by
    simp [Keyword.spelling, lineFeed_notMem_quoteName hname.lineFeed_notMem]
  rcases selectionOf_cases column with ⟨table, source, htable, hsource, hselection⟩ |
    ⟨hselection, htext⟩
  · rw [hselection] at hitem
    rw [selectText_derived htable hsource]
    cases hitem with
    | derived hbare hcolumn hnames =>
      have hfront : '\n' ∉ (quoteName table).toList ++ '.' :: (quoteName source).toList := by
        simp [lineFeed_notMem_quoteName hbare.lineFeed_notMem,
          lineFeed_notMem_quoteName hcolumn.lineFeed_notMem]
      by_cases hname : source = column.name
      · rwa [if_pos hname, List.append_nil]
      · rw [if_neg hname] at hnames ⊢
        exact List.mem_append.not.2 (not_or.2 ⟨hfront, halias (hnames _ rfl)⟩)
  · rw [hselection] at hitem
    rw [htext]
    cases hitem with
    | missing hname =>
      exact List.mem_append.not.2 (not_or.2 ⟨by decide, halias hname⟩)

theorem lineFeed_notMem_intercalate {items : List (List Char)}
    (hitems : ∀ item ∈ items, '\n' ∉ item) : '\n' ∉ [',', ' '].intercalate items := by
  intro hmem
  have hall : ∀ c ∈ [',', ' '].intercalate items, c ≠ '\n' :=
    Text.forall_mem_intercalate (by decide) fun item hitem c hc heq => hitems item hitem (heq ▸ hc)
  exact hall '\n' hmem rfl

theorem lineFeed_notMem_viewBody {view : Table} (hwritten : IsWrittenView (viewDefinitionOf view)) :
    '\n' ∉ viewBody view := by
  have hitems : '\n' ∉ [',', ' '].intercalate
      ((definedColumns view).map fun column => (selectText column).toList) := by
    apply lineFeed_notMem_intercalate
    rw [List.forall_mem_map]
    exact fun column hmem =>
      lineFeed_notMem_selectText (hwritten.items _ (List.mem_map_of_mem hmem))
  have hsources : '\n' ∉ [',', ' '].intercalate
      ((viewSources view).map fun source => (quoteName source).toList) := by
    apply lineFeed_notMem_intercalate
    rw [List.forall_mem_map]
    exact fun source hmem =>
      lineFeed_notMem_quoteName (hwritten.sources _ (List.mem_map_of_mem hmem)).1.lineFeed_notMem
  have hname : '\n' ∉ (quoteName view.name).toList :=
    lineFeed_notMem_quoteName hwritten.name.lineFeed_notMem
  simp [viewBody, hname, hitems, hsources, Keyword.spelling]

/-- A written view is one line, which separates no batches. -/
theorem isBatchFree_viewText {view : Table} (hwritten : IsWrittenView (viewDefinitionOf view)) :
    IsBatchFree (viewText view).toList := by
  have hline := lineFeed_notMem_viewBody hwritten
  obtain ⟨back, hbody⟩ : ∃ back, viewBody view = 'C' :: ['R'] ++ ('E' :: back) :=
    ⟨_, rfl⟩
  have hfree : IsBatchFree ([] ++ 'C' :: ['R'] ++ ('E' :: back ++ [';']) ++ ['\n']) := by
    rw [hbody] at hline
    refine isBatchFree_of_mem (by simp) (by decide) (by simp) (c := 'E') (by simp) (by decide) ?_
    simpa using hline
  rw [viewText_toList hwritten.someItem, hbody]
  simpa using hfree

/-! ## Schemas -/

end Sql

/-- The tables of a schema that are no views. -/
def Schema.bases (schema : Schema) : List Table :=
  schema.tables.filter fun table => !table.isView

/-- The views of a schema. -/
def Schema.views (schema : Schema) : List Table :=
  schema.tables.filter Table.isView

/-- A schema whose tables can be written without loss and whose views are written
with bare names. -/
structure Schema.IsWritable (schema : Schema) : Prop where
  bases : schema.bases ≠ [] → AreWritable schema.bases
  views : ∀ view ∈ schema.views, Sql.IsWrittenView (Sql.viewDefinitionOf view)

namespace Sql

/-- A schema is written as its tables and its views, with an empty line between
them if there are both. -/
theorem schemaText_toList_append (schema : Schema) :
    ∃ between, (between = [] ∨ between = ['\n']) ∧
      (schemaText schema).toList =
        ['\n'].intercalate (schema.bases.map fun table => (tableText table).toList) ++
          (between ++ schema.views.flatMap fun view => (viewText view).toList) ∧
      (schema.bases = [] ∨
        Delimits (between ++ schema.views.flatMap fun view => (viewText view).toList)) := by
  rw [schemaText, ← Schema.bases, ← Schema.views]
  cases schema.bases with
  | nil =>
    exact ⟨[], Or.inl rfl, by simp [String.toList_join, List.flatMap_map], Or.inl rfl⟩
  | cons table more =>
    cases schema.views with
    | nil =>
      exact ⟨[], Or.inl rfl, by simp [String.toList_intercalate, Function.comp_def],
        Or.inr delimits_nil⟩
    | cons view others =>
      exact ⟨['\n'], Or.inr rfl, by simp [String.toList_intercalate, String.toList_join,
        List.flatMap_map, Function.comp_def], Or.inr (delimits_cons (by decide) _)⟩

theorem spellings_viewTexts {views : List Table}
    (hviews : ∀ view ∈ views, IsWrittenView (viewDefinitionOf view)) (rest : List Char) :
    spellings ((views.flatMap fun view => (viewText view).toList) ++ rest) =
      (views.map fun view => viewSpellings (viewDefinitionOf view)).flatten ++ spellings rest := by
  induction views with
  | nil => rfl
  | cons view others ih =>
    obtain ⟨hview, hothers⟩ := List.forall_mem_cons.1 hviews
    rw [List.flatMap_cons, List.append_assoc, spellings_viewText hview, ih hothers, List.map_cons,
      List.flatten_cons, List.append_assoc]

/-- A written schema reads as the definitions of its tables and then of its
views. -/
theorem spellings_schemaText_append {schema : Schema} (hwritable : schema.IsWritable) :
    spellings (schemaText schema).toList =
      (schema.bases.map tableSpellings ++
        schema.views.map fun view => viewSpellings (viewDefinitionOf view)).flatten ++
          [⟨.eof, []⟩] := by
  obtain ⟨between, hbetween, htext, hends⟩ := schemaText_toList_append schema
  have htables : Spells (['\n'].intercalate (schema.bases.map fun table => (tableText table).toList))
      (schema.bases.map tableSpellings).flatten :=
    spells_tableTexts (fun table => (tableText table).toList) fun table hmem =>
      have hbases := (hwritable.bases (List.ne_nil_of_mem hmem)).areLegible
      spells_tableText (hbases.wellNamed.nonempty table hmem) (hbases.columns table hmem)
  have hviews := spellings_viewTexts hwritable.views []
  have hblank : ∀ c ∈ between, Text.isBlank c = true := by
    rcases hbetween with rfl | rfl
    · simp
    · exact List.forall_mem_singleton.2 (by decide)
  rw [List.append_nil, spellings_nil] at hviews
  have hlast := spellings_blanks hblank (schema.views.flatMap fun view => (viewText view).toList)
  rw [htext, List.flatten_append, List.append_assoc, ← hviews]
  rcases hends with hnone | hdelimits
  · rw [hnone]
    exact hlast
  · rw [htables _ hdelimits, hlast]

theorem isBatchFree_viewTexts {views : List Table}
    (hviews : ∀ view ∈ views, IsWrittenView (viewDefinitionOf view)) :
    IsBatchFree (views.flatMap fun view => (viewText view).toList) := by
  induction views with
  | nil => exact isBatchFree_nil
  | cons view others ih =>
    obtain ⟨hview, hothers⟩ := List.forall_mem_cons.1 hviews
    exact (isBatchFree_viewText hview).append (ih hothers)

/-- Nothing of a written schema is taken for a batch separator. -/
theorem separateBatches_schemaText_append {schema : Schema} (hwritable : schema.IsWritable) :
    separateBatches (schemaText schema).toList = (schemaText schema).toList := by
  obtain ⟨between, hbetween, htext, -⟩ := schemaText_toList_append schema
  have htables := isBatchFree_tableTexts (fun table => (tableText table).toList) fun table hmem =>
    isBatchFree_tableText (hwritable.bases (List.ne_nil_of_mem hmem)).areLegible hmem
  have hempty : IsBatchFree between := by
    rcases hbetween with rfl | rfl
    · exact isBatchFree_nil
    · have hline : IsBatchFree ([] ++ ['\n']) := isBatchFree_line (by simp) (by decide)
      exact hline
  have hall := htables.append (hempty.append (isBatchFree_viewTexts hwritable.views)) []
  rw [List.append_nil, ← htext] at hall
  exact hall.trans (List.append_nil _)

end Sql

end Crowfoot
