import Crowfoot.Proofs.Sql.ReadColumns
import Crowfoot.Proofs.Sql.WrittenLines
import Mathlib.Data.List.Basic

/-!
# Reading written tables

A written table is read as the definition of its columns, with a foreign key for
every reference, and a script of written tables as these definitions in order; where
types are read as others, so are the columns.  Neither a name that would be an option
of `CREATE TABLE` nor one that would begin a constraint is in the way: such names are
keywords, and keywords are quoted.
-/

namespace Crowfoot

namespace Sql

/-! ## Clauses -/

theorem expectKeyword?_of_spelling {lexeme : Lexeme} {name : String}
    (hspelling : lexeme.spelling = nameSpelling name) (keyword : Keyword) (rest : List Lexeme) :
    expectKeyword? keyword (lexeme :: rest) = none := by
  have hne : lexeme.token ≠ .keyword keyword := by
    rcases token_of_spelling hspelling with hword | hquoted
    · simp [hword]
    · simp [hquoted]
  rw [expectKeyword?, expect?, if_neg hne]

section Clauses

variable {column : Column}

/-- The clause that a column is written as. -/
def columnClause (column : Column) : Clause :=
  .column column.clearReference (foreignKeyOf? column)

theorem readKeyClause_of_spelling {lexeme : Lexeme} {name : String}
    (hspelling : lexeme.spelling = nameSpelling name) (rest : List Lexeme) :
    readKeyClause (lexeme :: rest) = .definition (lexeme :: rest) := by
  rw [readKeyClause]
  rw [expectKeyword?_of_spelling hspelling]
  rcases token_of_spelling hspelling with hword | hquoted
  · simp [hword]
  · simp [hquoted]

/-- A written column is no constraint and no index. -/
theorem readTableClause?_of_spelling (hcolumn : column.IsLegible) {read : String → String}
    (hreads : ReadsType column.type (read column.type)) {lexemes : List Lexeme}
    (hlexemes : lexemes.map Lexeme.spelling = columnSpellings column) :
    readTableClause? lexemes = some (columnClause (column.echo read)) := by
  have hread := readColumn?_of_spelling hcolumn hreads hlexemes
  obtain ⟨name, rest, rfl, hname, -⟩ := List.map_eq_cons_iff.1 hlexemes
  have hindex : name.token.isOneOf indexWords = false := by
    rw [Token.isOneOf, List.any_eq_false]
    intro word hword
    rcases token_of_spelling hname with hbare | hquoted
    · have hdiffer := hcolumn.notIndexWord word hword
      rw [hbare, Token.isWord]
      simpa [Text.sameName] using hdiffer
    · simp [hquoted, Token.isWord]
  rw [readTableClause?, readKeyClause_of_spelling hname]
  simp [hindex, readColumnClause?, hread, columnClause, foreignKeyOf?, Column.echo]

end Clauses

/-! ## Nesting -/

/-- A written column is in the way of no stop. -/
theorem IsStop.keepsDepth_columnSpellings {stop : Token} (hstop : IsStop stop) {column : Column}
    (htype : IsLegibleType column.type) : KeepsDepth stop 0 (columnSpellings column) := by
  have hname := (hstop.isFlat_name 0 column.name).keepsDepth
  have htypes : KeepsDepth stop 0 (typeSpellings column.type) :=
    htype.isFiller.keepsDepth hstop (by simp)
  have hconstraints : KeepsDepth stop 0 (constraintSpellings column) := by
    apply keepsDepth_of_forall_isFlat
    intro spelling hmem
    obtain ⟨keyword, htoken, -⟩ := constraintSpellings_keyword spelling hmem
    rw [htoken]
    exact hstop.isFlat_keyword 0 keyword
  have hreference : KeepsDepth stop 0 (referenceSpellings column) := by
    rw [referenceSpellings]
    split
    · exact keepsDepth_nil
    · rename_i reference hsome
      have htarget := (hstop.isFlat_keyword 0 .references).keepsDepth.append
        (hstop.isFlat_name 0 reference.table).keepsDepth
      exact htarget.append (keepsDepth_group hstop.ne_leftParen
        (hstop.isFlat_name 1 reference.column).keepsDepth)
  exact hname.append (htypes.append (hconstraints.append hreference))

theorem keepsDepth_columnList {stop : Token} (hstop : IsStop stop) {base : Nat}
    (hcomma : .comma = stop → 0 < base) {columns : List Column}
    (htypes : ∀ column ∈ columns, IsLegibleType column.type) :
    KeepsDepth stop base ([commaMark].intercalate (columns.map columnSpellings)) := by
  apply KeepsDepth.intercalate ⟨by decide, by decide, hcomma⟩
  intro item hmem
  obtain ⟨column, hcolumn, rfl⟩ := List.mem_map.1 hmem
  exact (hstop.keepsDepth_columnSpellings (htypes column hcolumn)).mono (Nat.zero_le base)

/-! ## Definitions -/

/-- The definition that a table is written as. -/
def definitionOf (table : Table) : TableDefinition where
  name := table.name
  columns := table.columns.map Column.clearReference
  foreignKeys := table.columns.filterMap foreignKeyOf?

theorem foldl_collectColumn {columns : List Column} {collected : List Column}
    (hdistinct : DistinctNames ((collected ++ columns).map Column.name)) :
    (columns.map columnClause).foldl Clause.collectColumn collected =
      collected ++ columns.map Column.clearReference := by
  induction columns generalizing collected with
  | nil => simp
  | cons column more ih =>
    have hnames : ((collected ++ [column.clearReference]) ++ more).map Column.name =
        (collected ++ column :: more).map Column.name := by simp [Column.clearReference]
    rw [← hnames] at hdistinct
    have hput : Clause.collectColumn collected (columnClause column) =
        collected ++ [column.clearReference] := by
      apply putFirst_of_distinctNames Column.name column.clearReference
      rw [List.map_append] at hdistinct
      exact (List.pairwise_append.1 hdistinct).1
    rw [List.map_cons, List.foldl_cons, hput, ih hdistinct, List.map_cons, List.append_assoc,
      List.singleton_append]

theorem markKeys_nil (column : Column) : markKeys [] [] column = column := rfl

theorem ofClauses_columnClauses {table : Table}
    (hdistinct : DistinctNames (table.columns.map Column.name)) :
    TableDefinition.ofClauses table.name (table.columns.map columnClause) = definitionOf table := by
  have hprimary : (table.columns.map columnClause).flatMap Clause.primaryNames = [] := by
    simp [List.flatMap_map, columnClause, Clause.primaryNames]
  have hunique : (table.columns.map columnClause).flatMap Clause.uniqueNames = [] := by
    simp [List.flatMap_map, columnClause, Clause.uniqueNames]
  have hkeys : (table.columns.map columnClause).flatMap Clause.declaredKeys =
      table.columns.filterMap foreignKeyOf? := by
    rw [List.flatMap_map, List.filterMap_eq_flatMap_toList]
    rfl
  rw [TableDefinition.ofClauses, hprimary, hunique, hkeys,
    foldl_collectColumn (by simpa using hdistinct), definitionOf]
  simp [markKeys_nil]

/-- Tables that are written without loss have the definitions that are read. -/
theorem definitionOf_echo {tables : List Table} (hwritable : AreWritable tables) {table : Table}
    (hmem : table ∈ tables) : definitionOf (table.echo id) = definitionOf table := by
  have hcolumns : table.columns.map (Column.echo id) = table.columns := by
    rw [List.map_congr_left, List.map_id]
    exact fun column hcolumn => (hwritable.columns table hmem column hcolumn).echo_eq
  rw [definitionOf, definitionOf, Table.echo, hcolumns]

/-! ## Statements -/

/-- How the types of some tables are read. -/
def ReadsTypes (read : String → String) (tables : List Table) : Prop :=
  ∀ table ∈ tables, ∀ column ∈ table.columns, ReadsType column.type (read column.type)

theorem exists_readsTypes {tables : List Table} (hlegible : AreLegible tables) :
    ∃ read, ReadsTypes read tables := by
  have hsome (type : String) : ∃ read, IsLegibleType type → ReadsType type read := by
    by_cases htype : IsLegibleType type
    · obtain ⟨read, hread⟩ := exists_readsType htype
      exact ⟨read, fun _ => hread⟩
    · exact ⟨type, fun hlegible => absurd hlegible htype⟩
  choose read hread using hsome
  exact ⟨read, fun table htable column hcolumn =>
    hread column.type (hlegible.columns table htable column hcolumn).type⟩

theorem readsTypes_id {tables : List Table} (hwritable : AreWritable tables) :
    ReadsTypes id tables :=
  fun table htable column hcolumn =>
    readsType_self (hwritable.columns table htable column hcolumn).type

section Statements

variable {tables : List Table} {table : Table} (hlegible : AreLegible tables)
  {read : String → String} (hreads : ReadsTypes read tables) (hmem : table ∈ tables)

theorem columnSpellings_ne_nil (column : Column) : columnSpellings column ≠ [] := by
  simp [columnSpellings]

include hlegible hreads hmem

/-- The columns between the parentheses of a written table are its clauses. -/
theorem filterMap_readTableClause? {inner : List Lexeme} (hinner : inner.map Lexeme.spelling =
      [commaMark].intercalate (table.columns.map columnSpellings)) :
    (splitCommas inner).filterMap readTableClause? =
      (table.echo read).columns.map columnClause := by
  have hcolumns := hlegible.columns table hmem
  have hitems : ∀ item ∈ table.columns.map columnSpellings,
      item ≠ [] ∧ KeepsDepth .comma 0 item := by
    intro item hitem
    obtain ⟨column, hcolumn, rfl⟩ := List.mem_map.1 hitem
    exact ⟨columnSpellings_ne_nil column,
      isStop_comma.keepsDepth_columnSpellings (hcolumns column hcolumn).type⟩
  rw [Table.echo, List.map_map]
  exact filterMap_of_map_spelling (splitCommas_of_intercalate hitems hinner)
    fun column hcolumn piece hpiece =>
      readTableClause?_of_spelling (hcolumns column hcolumn) (hreads table hmem column hcolumn)
        hpiece

/-- A written table is read as its definition. -/
theorem readTable?_of_spelling {name opening closing : Lexeme} {inner : List Lexeme}
    (rest : List Lexeme)
    (hname : name.spelling = nameSpelling table.name) (hopening : opening.token = .leftParen)
    (hinner : inner.map Lexeme.spelling =
      [commaMark].intercalate (table.columns.map columnSpellings))
    (hclosing : closing.token = .rightParen) :
    readTable? (name :: opening :: (inner ++ closing :: rest)) =
      some (definitionOf (table.echo read)) := by
  have hskip : skipIfNotExists (name :: opening :: (inner ++ closing :: rest)) =
      name :: opening :: (inner ++ closing :: rest) := by
    rw [skipIfNotExists, expectKeyword?_of_spelling hname]
  have hqualified := readQualifiedName?_of_spelling hname (hlegible.names table hmem).nonempty
    (opening :: (inner ++ closing :: rest)) (by simp [hopening])
  have hkeeps : KeepsDepth .rightParen 0 (inner.map Lexeme.spelling) := by
    rw [hinner]
    exact keepsDepth_columnList isStop_rightParen (by simp)
      fun column hcolumn => (hlegible.columns table hmem column hcolumn).type
  have hgroup : readGroup? (opening :: (inner ++ closing :: rest)) = some (inner, rest) := by
    rw [readGroup?, expect?, if_pos hopening, Option.bind_some]
    exact closeGroup?_of_keepsDepth hkeeps hclosing rest
  have hclauses := filterMap_readTableClause? hlegible hreads hmem hinner
  have hdistinct : DistinctNames ((table.echo read).columns.map Column.name) := by
    rw [Table.echo, List.map_map]
    exact hlegible.wellNamed.distinctColumns table hmem
  have hdefinition : TableDefinition.ofClauses table.name
      ((table.echo read).columns.map columnClause) = definitionOf (table.echo read) :=
    ofClauses_columnClauses hdistinct
  simp only [readTable?, hskip, hqualified, hgroup, Option.bind_eq_bind, Option.bind_some,
    Option.pure_def, hclauses, hdefinition]

omit hlegible hreads hmem in
/-- What is created follows at once where no modifiers stand in front of it. -/
theorem readCreateOptions?_of_kind {lexeme : Lexeme}
    (htoken : lexeme.token = .keyword .table ∨ lexeme.token = .keyword .view)
    (rest : List Lexeme) : readCreateOptions? (lexeme :: rest) = some (lexeme :: rest) := by
  rcases htoken with htable | hview
  · simp [readCreateOptions?, expectKeyword?, expect?, htable, skipCreateModifiers,
      Token.isOneOf, Token.isWord]
  · simp [readCreateOptions?, expectKeyword?, expect?, hview, skipCreateModifiers,
      Token.isOneOf, Token.isWord]

omit hlegible hreads hmem in
theorem readCreation?_of_table {lexeme : Lexeme} (htoken : lexeme.token = .keyword .table)
    (rest : List Lexeme) :
    readCreation? (lexeme :: rest) = (readTable? rest).map .createTable := by
  simp [readCreation?, readCreateOptions?_of_kind (.inl htoken), htoken]

theorem ofLexemes?_of_spelling {lexemes : List Lexeme}
    (hlexemes : lexemes.map Lexeme.spelling = tableSpellings table) :
    Statement.ofLexemes? lexemes = some (.createTable (definitionOf (table.echo read))) := by
  obtain ⟨front, final, rfl, hfront, -⟩ := List.map_eq_append_iff.1 hlexemes
  obtain ⟨create, body, rfl, hcreate, hbody⟩ := List.map_eq_cons_iff.1 hfront
  obtain ⟨keyword, more, rfl, hkeyword, hmore⟩ := List.map_eq_cons_iff.1 hbody
  obtain ⟨name, group, rfl, hname, hgroup⟩ := List.map_eq_cons_iff.1 hmore
  obtain ⟨opening, tail, rfl, hopening, htail⟩ := List.map_eq_cons_iff.1 hgroup
  obtain ⟨inner, last, rfl, hinner, hlast⟩ := List.map_eq_append_iff.1 htail
  obtain ⟨closing, rfl, hclosing⟩ := List.map_eq_singleton_iff.1 hlast
  have hcreate' : create.token = .keyword .create := congrArg Spelling.token hcreate
  have hread := readTable?_of_spelling hlegible hreads hmem final hname
    (congrArg Spelling.token hopening) hinner (congrArg Spelling.token hclosing)
  have hshape : create :: keyword :: name :: opening :: (inner ++ [closing]) ++ final =
      create :: keyword :: name :: opening :: (inner ++ closing :: final) := by simp
  rw [hshape, Statement.ofLexemes?]
  simp only [hcreate', readCreation?_of_table (congrArg Spelling.token hkeyword), hread,
    Option.map_some]

end Statements

section Written

variable {tables : List Table} {table : Table}

theorem isInner_keyword {keyword : Keyword} (hcreate : keyword ≠ .create)
    (halter : keyword ≠ .alter) : IsInner (.keyword keyword) := by
  simp [IsInner, hcreate, halter]

theorem isInner_name (name : String) : IsInner (nameSpelling name).token := by
  rcases nameSpelling_token name with hword | hquoted
  · simp [hword, IsInner]
  · simp [hquoted, IsInner]

theorem isInner_intercalate {items : List (List Spelling)}
    (hitems : ∀ item ∈ items, ∀ spelling ∈ item, IsInner spelling.token) :
    ∀ spelling ∈ [commaMark].intercalate items, IsInner spelling.token :=
  Text.forall_mem_intercalate (by simp [commaMark, IsInner]) hitems

theorem isInner_group {inner : List Spelling}
    (hinner : ∀ spelling ∈ inner, IsInner spelling.token) :
    ∀ spelling ∈ openMark :: inner ++ [closeMark], IsInner spelling.token := by
  rw [List.forall_mem_append, List.forall_mem_cons, List.forall_mem_singleton]
  exact ⟨⟨by simp [openMark, IsInner], hinner⟩, by simp [closeMark, IsInner]⟩

theorem isInner_columnSpellings {column : Column} (htype : IsLegibleType column.type) :
    ∀ spelling ∈ columnSpellings column, IsInner spelling.token := by
  refine List.forall_mem_cons.2 ⟨isInner_name column.name, ?_⟩
  refine List.forall_mem_append.2 ⟨htype.isFiller.isInner, List.forall_mem_append.2 ⟨?_, ?_⟩⟩
  · intro spelling hmem
    obtain ⟨keyword, htoken, hcreate, halter⟩ := constraintSpellings_keyword spelling hmem
    rw [htoken]
    exact isInner_keyword hcreate halter
  · rw [referenceSpellings]
    split
    · simp
    · rename_i reference hreference
      have hgroup := isInner_group (List.forall_mem_singleton.2 (isInner_name reference.column))
      exact List.forall_mem_cons.2 ⟨isInner_keyword (by decide) (by decide),
        List.forall_mem_cons.2 ⟨isInner_name reference.table, hgroup⟩⟩

/-- A written table is one statement. -/
theorem isWritten_tableSpellings (hlegible : AreLegible tables) (hmem : table ∈ tables) :
    IsWritten (tableSpellings table) := by
  have htypes : ∀ column ∈ table.columns, IsLegibleType column.type :=
    fun column hcolumn => (hlegible.columns table hmem column hcolumn).type
  have hstop := isStop_semicolon
  refine ⟨_, rfl, ?_, ?_⟩
  · have hhead := (hstop.isFlat_keyword 0 .table).keepsDepth.append
      (hstop.isFlat_name 0 table.name).keepsDepth
    exact hhead.append (keepsDepth_group hstop.ne_leftParen
      (keepsDepth_columnList hstop (fun _ => Nat.one_pos) htypes))
  · have hlist : ∀ spelling ∈ [commaMark].intercalate (table.columns.map columnSpellings),
        IsInner spelling.token := by
      apply isInner_intercalate
      intro item hitem
      obtain ⟨column, hcolumn, rfl⟩ := List.mem_map.1 hitem
      exact isInner_columnSpellings (htypes column hcolumn)
    exact List.forall_mem_cons.2 ⟨isInner_keyword (by decide) (by decide),
      List.forall_mem_cons.2 ⟨isInner_name table.name, isInner_group hlist⟩⟩

/-- The statements of written base tables are the definitions that are read. -/
theorem ofScript_schemaText_echo {schema : Schema} (hlegible : AreLegible schema.tables)
    {read : String → String} (hreads : ReadsTypes read schema.tables) :
    Statement.ofScript (schemaText schema).toList =
      schema.tables.map fun table => .createTable (definitionOf (table.echo read)) := by
  have hwritten : ∀ statement ∈ schema.tables.map tableSpellings, IsWritten statement := by
    intro statement hstatement
    obtain ⟨table, htable, rfl⟩ := List.mem_map.1 hstatement
    exact isWritten_tableSpellings hlegible htable
  have hsplit := splitStatements_of_written hwritten (spellings_schemaText hlegible)
  rw [Statement.ofScript, scriptStatements, separateBatches_schemaText hlegible]
  exact filterMap_of_map_spelling hsplit fun table htable piece hpiece =>
    ofLexemes?_of_spelling hlegible hreads htable hpiece

/-- The statements of base tables that are written without loss are their
definitions. -/
theorem ofScript_schemaText {schema : Schema} (hwritable : AreWritable schema.tables) :
    Statement.ofScript (schemaText schema).toList =
      schema.tables.map fun table => .createTable (definitionOf table) := by
  rw [ofScript_schemaText_echo hwritable.areLegible (readsTypes_id hwritable)]
  exact List.map_congr_left fun table htable =>
    congrArg Statement.createTable (definitionOf_echo hwritable htable)

end Written

end Sql

end Crowfoot
