import Crowfoot.Proofs.Sql.ReadTables
import Crowfoot.Proofs.Sql.WrittenViews

/-!
# Reading written views

A written view is read as the definition that it was written from.  Its names are
no keywords and none of the words that end a list or begin an option, so that
every list is read to its end.
-/

namespace Crowfoot

namespace Sql

/-! ## Tokens of written views -/

/-- The tokens that the items of a select list are written with. -/
inductive IsItemToken : Token → Prop
  | name {name : String} (hname : IsBareName name) : IsItemToken (.word name.toList)
  | dot : IsItemToken .dot
  | as : IsItemToken (.keyword .as)
  | null : IsItemToken (.keyword .null)

/-- The tokens that lists of items are written with. -/
def IsListToken (token : Token) : Prop :=
  token = .comma ∨ IsItemToken token

theorem isItemToken_name {name : String} (hname : IsBareName name) :
    IsItemToken (nameSpelling name).token := by
  rw [hname.nameSpelling_eq]
  exact .name hname

theorem IsWrittenItem.isItemToken {item : SelectItem} (hitem : IsWrittenItem item) :
    ∀ spelling ∈ itemSpellings item, IsItemToken spelling.token := by
  have halias {name : String} (hname : IsBareName name) :
      ∀ spelling ∈ aliasSpellings (some name), IsItemToken spelling.token :=
    List.forall_mem_cons.2 ⟨.as, List.forall_mem_singleton.2 (isItemToken_name hname)⟩
  cases hitem with
  | @derived table source aliasName htable hsource hnames =>
    refine List.forall_mem_append.2 ⟨?_, ?_⟩
    · exact List.forall_mem_cons.2 ⟨isItemToken_name htable, List.forall_mem_cons.2
        ⟨.dot, List.forall_mem_singleton.2 (isItemToken_name hsource)⟩⟩
    · cases aliasName with
      | none => simp [aliasSpellings]
      | some name => exact halias (hnames name rfl)
  | missing hname => exact List.forall_mem_cons.2 ⟨.null, halias hname⟩

/-- An item is in the way of no stop. -/
theorem IsItemToken.isFlat {token : Token} (htoken : IsItemToken token) {stop : Token}
    (hstop : IsStop stop) (base : Nat) : IsFlat stop base token := by
  apply hstop.isFlat
  cases htoken <;> simp [IsStop]

theorem IsItemToken.isInner {token : Token} (htoken : IsItemToken token) : IsInner token := by
  cases htoken <;> simp [IsInner]

theorem itemSpellings_ne_nil {item : SelectItem} : itemSpellings item ≠ [] := by
  rw [itemSpellings]
  split <;> simp

/-! ## Lists -/

/-- Without parentheses, a list is read up to the first token that ends it. -/
theorem readUntil_append {stop : Token → Bool} {front : List Lexeme}
    (hfront : ∀ lexeme ∈ front, stop lexeme.token = false ∧ lexeme.token ≠ .leftParen ∧
      lexeme.token ≠ .rightParen) {last : Lexeme} (hlast : stop last.token = true)
    (rest : List Lexeme) :
    readUntil stop 0 (front ++ last :: rest) = (front, last :: rest) := by
  induction front with
  | nil => rw [List.nil_append, readUntil, if_pos ⟨rfl, hlast⟩]
  | cons lexeme more ih =>
    obtain ⟨⟨hgo, hopen, hclose⟩, hmore⟩ := List.forall_mem_cons.1 hfront
    have hsame : lexeme.token.depthAfter 0 = 0 := by
      unfold Token.depthAfter
      split <;> simp_all
    rw [List.cons_append, readUntil, if_neg (by simp [hgo]), hsame, ih hmore]

/-! ## Items -/

section Items

variable {lexemes : List Lexeme}

/-- An alias is split off an item. -/
theorem splitAlias_as {first marker last : Lexeme} {middle : List Lexeme} {name : String}
    (hmarker : marker.token = .keyword .as) (hlast : last.spelling = nameSpelling name)
    (hname : name ≠ "") :
    splitAlias (first :: middle ++ [marker, last]) = (first :: middle, some name) := by
  have hread := name?_of_spelling hlast hname
  simp [splitAlias, hmarker, hread]

theorem splitAlias_qualified {qualifier dot last : Lexeme} (hdot : dot.token = .dot) :
    splitAlias [qualifier, dot, last] = ([qualifier, dot, last], none) := by
  simp [splitAlias, hdot, Token.endsValue]

/-- A column with its table in front is read as such. -/
theorem selectExpression_qualified {qualifier dot last : Lexeme} {table source : String}
    (hqualifier : qualifier.spelling = nameSpelling table) (htable : table ≠ "")
    (hdot : dot.token = .dot) (hlast : last.spelling = nameSpelling source) (hsource : source ≠ "") :
    SelectExpression.ofLexemes [qualifier, dot, last] = .column (some table) source := by
  have hstar : last.token ≠ .star := by
    rcases token_of_spelling hlast with hword | hquoted
    · simp [hword]
    · simp [hquoted]
  simp [SelectExpression.ofLexemes, hdot, hstar, name?_of_spelling hqualifier htable,
    name?_of_spelling hlast hsource]

/-- `NULL` is a keyword and so no column. -/
theorem selectExpression_null {lexeme : Lexeme} (hnull : lexeme.spelling = keywordSpelling .null) :
    SelectExpression.ofLexemes [lexeme] = .computed "NULL".toList := by
  have htoken : lexeme.token = .keyword .null := congrArg Spelling.token hnull
  have htext : lexeme.text = "NULL".toList := congrArg Spelling.text hnull
  simp [SelectExpression.ofLexemes, htoken, htext, Lexeme.name?, Keyword.isSoft, Lexeme.sourceText]

/-- A written item is read as it was. -/
theorem selectItem_of_spelling {item : SelectItem} (hitem : IsWrittenItem item)
    (hlexemes : lexemes.map Lexeme.spelling = itemSpellings item) :
    SelectItem.ofLexemes lexemes = item := by
  cases hitem with
  | @derived table source aliasName htable hsource hnames =>
    obtain ⟨front, back, rfl, hfront, hback⟩ := List.map_eq_append_iff.1 hlexemes
    obtain ⟨qualifier, more, rfl, hqualifier, hmore⟩ := List.map_eq_cons_iff.1 hfront
    obtain ⟨dot, tail, rfl, hdot, htail⟩ := List.map_eq_cons_iff.1 hmore
    obtain ⟨last, rfl, hlast⟩ := List.map_eq_singleton_iff.1 htail
    have hdot' : dot.token = .dot := congrArg Spelling.token hdot
    have hexpression := selectExpression_qualified hqualifier htable.ne_empty hdot' hlast
      hsource.ne_empty
    cases aliasName with
    | none =>
      obtain rfl := List.map_eq_nil_iff.1 hback
      simp only [List.append_nil, SelectItem.ofLexemes, splitAlias_qualified hdot', hexpression]
    | some name =>
      obtain ⟨marker, final, rfl, hmarker, hfinal⟩ := List.map_eq_cons_iff.1 hback
      obtain ⟨given, rfl, hgiven⟩ := List.map_eq_singleton_iff.1 hfinal
      have hsplit : splitAlias ([qualifier, dot, last] ++ [marker, given]) =
          ([qualifier, dot, last], some name) :=
        splitAlias_as (congrArg Spelling.token hmarker) hgiven (hnames name rfl).ne_empty
      simp only [SelectItem.ofLexemes, hsplit, hexpression]
  | @missing name hname =>
    obtain ⟨first, more, rfl, hfirst, hmore⟩ := List.map_eq_cons_iff.1 hlexemes
    obtain ⟨marker, final, rfl, hmarker, hfinal⟩ := List.map_eq_cons_iff.1 hmore
    obtain ⟨given, rfl, hgiven⟩ := List.map_eq_singleton_iff.1 hfinal
    have hsplit : splitAlias ([first] ++ [marker, given]) = ([first], some name) :=
      splitAlias_as (congrArg Spelling.token hmarker) hgiven hname.ne_empty
    rw [List.singleton_append] at hsplit
    simp only [SelectItem.ofLexemes, hsplit, selectExpression_null hfirst]

/-- The items of a written select list are read as they were. -/
theorem map_selectItem_of_spelling {items : List SelectItem}
    (hitems : ∀ item ∈ items, IsWrittenItem item)
    (hlexemes : lexemes.map Lexeme.spelling = [commaMark].intercalate (items.map itemSpellings)) :
    (splitCommas lexemes).map SelectItem.ofLexemes = items := by
  have hpieces : ∀ piece ∈ items.map itemSpellings, piece ≠ [] ∧ KeepsDepth .comma 0 piece := by
    rw [List.forall_mem_map]
    exact fun item hmem => ⟨itemSpellings_ne_nil, keepsDepth_of_forall_isFlat fun spelling hspelling =>
      ((hitems item hmem).isItemToken spelling hspelling).isFlat isStop_comma 0⟩
  have hread : (splitCommas lexemes).filterMap (some ∘ SelectItem.ofLexemes) = items.map id :=
    filterMap_of_map_spelling (splitCommas_of_intercalate hpieces hlexemes)
      fun item hmem piece hpiece => congrArg some (selectItem_of_spelling (hitems item hmem) hpiece)
  rwa [List.filterMap_eq_map, List.map_id] at hread

end Items

/-! ## Sources -/

theorem readTables_name {lexeme : Lexeme} {rest after : List Lexeme} {table : String}
    (hopen : lexeme.token ≠ .leftParen)
    (hread : readQualifiedName? (lexeme :: rest) = some (table, after)) :
    readTables true (lexeme :: rest) =
      ⟨table, (readTableAlias after).1⟩ :: readTables false (readTableAlias after).2 := by
  rw [readTables, if_neg hopen, if_pos rfl]
  split
  · simp_all
  · simp_all

theorem readTables_comma {lexeme : Lexeme} (hcomma : lexeme.token = .comma) (rest : List Lexeme) :
    readTables false (lexeme :: rest) = readTables true rest := by
  simp [readTables, hcomma]

/-- A table in front of a comma or at the end of the clause has no alias. -/
theorem readTableAlias_none {lexemes : List Lexeme}
    (hcomma : ∀ lexeme ∈ lexemes.head?, lexeme.token = .comma) :
    readTableAlias lexemes = (none, lexemes) := by
  cases lexemes with
  | nil => rfl
  | cons lexeme rest =>
    have htoken := hcomma lexeme rfl
    simp [readTableAlias, expectKeyword?, expect?, htoken]

/-- Written sources are read as they were. -/
theorem readTables_of_spelling {sources : List TableMention}
    (hsources : ∀ source ∈ sources, IsBareName source.table ∧ source.aliasName = none)
    {lexemes : List Lexeme} (hlexemes : lexemes.map Lexeme.spelling =
      [commaMark].intercalate (sources.map fun source => [nameSpelling source.table])) :
    readTables true lexemes = sources := by
  induction sources generalizing lexemes with
  | nil =>
    obtain rfl := List.map_eq_nil_iff.1 hlexemes
    rw [readTables]
  | cons source more ih =>
    obtain ⟨⟨hname, halias⟩, hmore⟩ := List.forall_mem_cons.1 hsources
    have hmention : (⟨source.table, none⟩ : TableMention) = source := by
      rw [← halias]
    have hstep {lexeme : Lexeme} (hlexeme : lexeme.spelling = nameSpelling source.table)
        {rest : List Lexeme} (hrest : ∀ next ∈ rest.head?, next.token = .comma) :
        readTables true (lexeme :: rest) = source :: readTables false rest := by
      have htoken := token_of_spelling hlexeme
      have hopen : lexeme.token ≠ .leftParen := by
        rcases htoken with hword | hquoted
        · simp [hword]
        · simp [hquoted]
      have hread := readQualifiedName?_of_spelling hlexeme hname.ne_empty rest
        fun next hnext => by simp [hrest next hnext]
      rw [readTables_name hopen hread, readTableAlias_none hrest, hmention]
    cases more with
    | nil =>
      obtain ⟨lexeme, rfl, hlexeme⟩ := List.map_eq_singleton_iff.1 hlexemes
      rw [hstep hlexeme (by simp), readTables]
    | cons second others =>
      rw [List.map_cons, List.map_cons, List.intercalate_cons_cons, List.append_assoc,
        List.singleton_append, List.singleton_append] at hlexemes
      obtain ⟨lexeme, rest, rfl, hlexeme, hrest⟩ := List.map_eq_cons_iff.1 hlexemes
      obtain ⟨comma, tail, rfl, hcomma, htail⟩ := List.map_eq_cons_iff.1 hrest
      have hcomma' : comma.token = .comma := congrArg Spelling.token hcomma
      rw [hstep hlexeme (by simp [hcomma']), readTables_comma hcomma', ih hmore htail]

/-! ## Statements -/

/-- A bare name is none of the words that are read as syntax. -/
theorem isOneOf_eq_false {name : String} (hname : IsBareName name) {words : List String}
    (hwords : words ⊆ reservedWords) : (Token.word name.toList).isOneOf words = false := by
  rw [Token.isOneOf, List.any_eq_false]
  intro word hword
  have hdiffer := hname.notReserved word (hwords hword)
  rw [Token.isWord]
  simpa [Text.sameName] using hdiffer

/-- No token of a list begins an option or ends a clause. -/
theorem IsListToken.passes {token : Token} (htoken : IsListToken token) :
    token ≠ .keyword .distinct ∧ token ≠ .keyword .fromClause ∧ token ≠ .leftParen ∧
      token ≠ .rightParen ∧ token.isOneOf ["ALL"] = false ∧ token.endsFrom = false := by
  rcases htoken with rfl | hitem
  · decide
  · cases hitem with
    | name hname =>
      exact ⟨by simp, by simp, by simp, by simp,
        isOneOf_eq_false hname (by simp [reservedWords]),
        isOneOf_eq_false hname (by simp [reservedWords])⟩
    | dot => decide
    | as => decide
    | null => decide

theorem isListToken_of_spelling {pieces : List (List Spelling)}
    (hpieces : ∀ piece ∈ pieces, ∀ spelling ∈ piece, IsItemToken spelling.token)
    {lexemes : List Lexeme} (hlexemes : lexemes.map Lexeme.spelling = [commaMark].intercalate pieces) :
    ∀ lexeme ∈ lexemes, IsListToken lexeme.token := by
  intro lexeme hmem
  have hall : ∀ spelling ∈ [commaMark].intercalate pieces, IsListToken spelling.token :=
    Text.forall_mem_intercalate (List.forall_mem_singleton.2 (Or.inl rfl))
      fun piece hpiece spelling hspelling => Or.inr (hpieces piece hpiece spelling hspelling)
  exact hall lexeme.spelling (hlexemes ▸ List.mem_map_of_mem hmem)

/-- Nothing in front of a written select list is taken for an option. -/
theorem skipOneOf_all {list : List Lexeme} (htokens : ∀ lexeme ∈ list, IsListToken lexeme.token)
    {origin : Lexeme} (horigin : origin.token = .keyword .fromClause) (rest : List Lexeme) :
    expectKeyword? .distinct (list ++ origin :: rest) = none ∧
      skipOneOf ["ALL"] (list ++ origin :: rest) = list ++ origin :: rest := by
  cases list with
  | nil => simp [expectKeyword?, expect?, skipOneOf, skipWhen, horigin, Token.isOneOf, Token.isWord]
  | cons lexeme more =>
    obtain ⟨hdistinct, -, -, -, hall, -⟩ := (htokens lexeme List.mem_cons_self).passes
    simp [expectKeyword?, expect?, skipOneOf, skipWhen, hdistinct, hall]

/-- A written select list ends at `FROM`. -/
theorem readUntil_fromClause {list : List Lexeme}
    (htokens : ∀ lexeme ∈ list, IsListToken lexeme.token) {origin : Lexeme}
    (horigin : origin.token = .keyword .fromClause) (rest : List Lexeme) :
    readUntil (· = .keyword .fromClause) 0 (list ++ origin :: rest) = (list, origin :: rest) := by
  apply readUntil_append _ (by simp [horigin])
  intro lexeme hmem
  obtain ⟨-, hfrom, hopen, hclose, -, -⟩ := (htokens lexeme hmem).passes
  exact ⟨by simp [hfrom], hopen, hclose⟩

/-- The tables of a written view end at the semicolon. -/
theorem readUntil_endsFrom {sources : List Lexeme}
    (htokens : ∀ lexeme ∈ sources, IsListToken lexeme.token) {closing : Lexeme}
    (hclosing : closing.token = .semicolon) :
    readUntil Token.endsFrom 0 (sources ++ [closing]) = (sources, [closing]) := by
  apply readUntil_append _ (by simp [hclosing, Token.endsFrom])
  intro lexeme hmem
  obtain ⟨-, -, hopen, hclose, -, hends⟩ := (htokens lexeme hmem).passes
  exact ⟨hends, hopen, hclose⟩

section Views

variable {definition : ViewDefinition} {list sources : List Lexeme}

/-- A written view is read as its definition. -/
theorem readView?_of_spelling (hwritten : IsWrittenView definition)
    {name marker select origin closing : Lexeme}
    (hname : name.spelling = nameSpelling definition.name)
    (hmarker : marker.token = .keyword .as) (hselect : select.token = .keyword .select)
    (hlist : list.map Lexeme.spelling = [commaMark].intercalate
      (definition.items.map itemSpellings))
    (horigin : origin.token = .keyword .fromClause)
    (hsources : sources.map Lexeme.spelling = [commaMark].intercalate
      (definition.sources.map fun source => [nameSpelling source.table]))
    (hclosing : closing.token = .semicolon) :
    readView? (name :: marker :: select :: (list ++ origin :: (sources ++ [closing]))) =
      some definition := by
  have hskip : skipIfNotExists (name :: marker :: select ::
      (list ++ origin :: (sources ++ [closing]))) =
      name :: marker :: select :: (list ++ origin :: (sources ++ [closing])) := by
    rw [skipIfNotExists, expectKeyword?_of_spelling hname]
  have hqualified := readQualifiedName?_of_spelling hname hwritten.name.ne_empty
    (marker :: select :: (list ++ origin :: (sources ++ [closing]))) (by simp [hmarker])
  have hgroup : skipOptionalGroup (marker :: select :: (list ++ origin :: (sources ++ [closing]))) =
      marker :: select :: (list ++ origin :: (sources ++ [closing])) := by
    simp [skipOptionalGroup, startsWith, hmarker]
  have hexpect {lexeme : Lexeme} {keyword : Keyword} (htoken : lexeme.token = .keyword keyword)
      (rest : List Lexeme) : expectKeyword? keyword (lexeme :: rest) = some rest :=
    if_pos htoken
  have hlistTokens : ∀ lexeme ∈ list, IsListToken lexeme.token := by
    apply isListToken_of_spelling _ hlist
    rw [List.forall_mem_map]
    exact fun item hmem => (hwritten.items item hmem).isItemToken
  have hsourceTokens : ∀ lexeme ∈ sources, IsListToken lexeme.token := by
    apply isListToken_of_spelling _ hsources
    rw [List.forall_mem_map]
    exact fun source hmem =>
      List.forall_mem_singleton.2 (isItemToken_name (hwritten.sources source hmem).1)
  obtain ⟨hdistinct, hall⟩ := skipOneOf_all hlistTokens horigin (sources ++ [closing])
  have hlistEnd := readUntil_fromClause hlistTokens horigin (sources ++ [closing])
  have hsourcesEnd := readUntil_endsFrom hsourceTokens hclosing
  have hitems := map_selectItem_of_spelling hwritten.items hlist
  have htables := readTables_of_spelling hwritten.sources hsources
  simp only [readView?, hskip, hqualified, hgroup, skipKeyword_self hmarker, hexpect hselect,
    hdistinct, hall, hlistEnd, hexpect horigin, hsourcesEnd, Option.bind_eq_bind,
    Option.bind_some, Option.pure_def, hitems, htables]

theorem readCreation?_of_view {lexeme : Lexeme} (htoken : lexeme.token = .keyword .view)
    (rest : List Lexeme) :
    readCreation? (lexeme :: rest) = (readView? rest).map .createView := by
  simp [readCreation?, readCreateOptions?_of_kind (.inr htoken), htoken]

/-- A written view is read as the statement that creates it. -/
theorem ofLexemes?_of_viewSpellings (hwritten : IsWrittenView definition) {lexemes : List Lexeme}
    (hlexemes : lexemes.map Lexeme.spelling = viewSpellings definition) :
    Statement.ofLexemes? lexemes = some (.createView definition) := by
  obtain ⟨front, final, rfl, hfront, hfinal⟩ := List.map_eq_append_iff.1 hlexemes
  obtain ⟨closing, rfl, hclosing⟩ := List.map_eq_singleton_iff.1 hfinal
  obtain ⟨create, body, rfl, hcreate, hbody⟩ := List.map_eq_cons_iff.1 hfront
  obtain ⟨keyword, more, rfl, hkeyword, hmore⟩ := List.map_eq_cons_iff.1 hbody
  obtain ⟨name, tail, rfl, hname, htail⟩ := List.map_eq_cons_iff.1 hmore
  obtain ⟨marker, clause, rfl, hmarker, hclause⟩ := List.map_eq_cons_iff.1 htail
  obtain ⟨select, lists, rfl, hselect, hlists⟩ := List.map_eq_cons_iff.1 hclause
  obtain ⟨list, back, rfl, hlist, hback⟩ := List.map_eq_append_iff.1 hlists
  obtain ⟨origin, sources, rfl, horigin, hsources⟩ := List.map_eq_cons_iff.1 hback
  have hread := readView?_of_spelling hwritten hname (congrArg Spelling.token hmarker)
    (congrArg Spelling.token hselect) hlist (congrArg Spelling.token horigin) hsources
    (congrArg Spelling.token hclosing)
  have hcreate' : create.token = .keyword .create := congrArg Spelling.token hcreate
  have hshape : create :: keyword :: name :: marker :: select :: (list ++ origin :: sources) ++
      [closing] = create :: keyword :: name :: marker :: select ::
        (list ++ origin :: (sources ++ [closing])) := by simp
  rw [hshape, Statement.ofLexemes?]
  simp only [hcreate', readCreation?_of_view (congrArg Spelling.token hkeyword), hread,
    Option.map_some]

/-- A written view is one statement. -/
theorem isWritten_viewSpellings (hwritten : IsWrittenView definition) :
    IsWritten (viewSpellings definition) := by
  have hstop := isStop_semicolon
  have hitem {token : Token} (htoken : IsListToken token) :
      IsFlat .semicolon 0 token ∧ IsInner token := by
    rcases htoken with rfl | hitem
    · exact ⟨⟨by decide, by decide, by simp⟩, by simp [IsInner]⟩
    · exact ⟨hitem.isFlat hstop 0, hitem.isInner⟩
  have hkeyword {keyword : Keyword} (hcreate : keyword ≠ .create) (halter : keyword ≠ .alter) :
      IsFlat .semicolon 0 (keywordSpelling keyword).token ∧
        IsInner (keywordSpelling keyword).token :=
    ⟨hstop.isFlat_keyword 0 keyword, isInner_keyword hcreate halter⟩
  have hlist {pieces : List (List Spelling)}
      (hpieces : ∀ piece ∈ pieces, ∀ spelling ∈ piece, IsItemToken spelling.token) :
      ∀ spelling ∈ [commaMark].intercalate pieces,
        IsFlat .semicolon 0 spelling.token ∧ IsInner spelling.token :=
    Text.forall_mem_intercalate (List.forall_mem_singleton.2 (hitem (Or.inl rfl)))
      fun piece hpiece spelling hspelling => hitem (Or.inr (hpieces piece hpiece spelling hspelling))
  have hitems := hlist (List.forall_mem_map.2 fun item hmem => (hwritten.items item hmem).isItemToken)
  have hsources := hlist (List.forall_mem_map.2 fun source hmem =>
    List.forall_mem_singleton.2 (isItemToken_name (hwritten.sources source hmem).1))
  have hname := hitem (Or.inr (isItemToken_name hwritten.name))
  have hbody : ∀ spelling ∈ keywordSpelling .view :: nameSpelling definition.name ::
      keywordSpelling .as :: keywordSpelling .select ::
        ([commaMark].intercalate (definition.items.map itemSpellings) ++
          keywordSpelling .fromClause :: [commaMark].intercalate
            (definition.sources.map fun source => [nameSpelling source.table])),
      IsFlat .semicolon 0 spelling.token ∧ IsInner spelling.token := by
    simp only [List.forall_mem_append, List.forall_mem_cons]
    exact ⟨hkeyword (by decide) (by decide), hname, hkeyword (by decide) (by decide),
      hkeyword (by decide) (by decide), hitems, hkeyword (by decide) (by decide), hsources⟩
  exact ⟨_, rfl, keepsDepth_of_forall_isFlat fun spelling hmem => (hbody spelling hmem).1,
    fun spelling hmem => (hbody spelling hmem).2⟩

end Views

/-- The definitions that a schema is written as: of its tables and then of its
views. -/
def writtenStatements (schema : Schema) : List Statement :=
  (schema.bases.map fun table => .createTable (definitionOf table)) ++
    schema.views.map fun view => .createView (viewDefinitionOf view)

/-- A written schema reads as the definitions of its tables and views. -/
theorem ofScript_schemaText_append {schema : Schema} (hwritable : schema.IsWritable) :
    Statement.ofScript (schemaText schema).toList = writtenStatements schema := by
  have hwritten : ∀ statement ∈ schema.bases.map tableSpellings ++
      schema.views.map (fun view => viewSpellings (viewDefinitionOf view)), IsWritten statement := by
    rw [List.forall_mem_append, List.forall_mem_map, List.forall_mem_map]
    exact ⟨fun table hmem =>
        isWritten_tableSpellings (hwritable.bases (List.ne_nil_of_mem hmem)).areLegible hmem,
      fun view hmem => isWritten_viewSpellings (hwritable.views view hmem)⟩
  have hsplit := splitStatements_of_written hwritten (spellings_schemaText_append hwritable)
  obtain ⟨tables, views, hpieces, htables, hviews⟩ := List.map_eq_append_iff.1 hsplit
  rw [Statement.ofScript, scriptStatements, separateBatches_schemaText_append hwritable, hpieces,
    List.filterMap_append]
  congr 1
  · refine filterMap_of_map_spelling htables fun table hmem piece hpiece => ?_
    have hbases := hwritable.bases (List.ne_nil_of_mem hmem)
    rw [ofLexemes?_of_spelling hbases.areLegible (readsTypes_id hbases) hmem hpiece,
      definitionOf_echo hbases hmem]
  · exact filterMap_of_map_spelling hviews fun view hmem piece hpiece =>
      ofLexemes?_of_viewSpellings (hwritable.views view hmem) hpiece

end Sql

end Crowfoot
