import Crowfoot.Proofs.Sql.WrittenTables
import Crowfoot.Sql.Reader

/-!
# Reading written tables

The readers give back what was written: every phrase of a written definition is
read as a whole, and what is left is what was written behind it.  Only a type may
be read as another one, and then what is left of it is passed over.  The readers
look at tokens and their source texts only, so the results are stated for all
lexemes that are spelled in the written way.
-/

namespace Crowfoot

/-- What is read of a written column if types are read as others. -/
def Column.echo (read : String → String) (column : Column) : Column where
  name := column.name
  type := read column.type
  isPrimaryKey := column.isPrimaryKey
  isUnique := column.isUnique && !column.isPrimaryKey
  isForeignKey := column.isForeignKey
  nullability := if column.isPrimaryKey then .notNull else column.nullability
  references := column.references

/-- What is read of a written table if types are read as others. -/
def Table.echo (read : String → String) (table : Table) : Table where
  name := table.name
  columns := table.columns.map (Column.echo read)

/-- A column that is written without loss is read as it was. -/
theorem Column.IsWritable.echo_eq {tables : List Table} {column : Column}
    (hcolumn : column.IsWritable tables) : column.echo id = column := by
  obtain ⟨-, -, -, -, hnull, hunique, ⟨hsource, hsourceColumn⟩, -, -⟩ := hcolumn
  cases column
  simp_all only [Column.echo, id]
  split <;> simp_all

namespace Sql

/-! ## Names -/

section Names

variable {lexeme : Lexeme} {name : String}

theorem token_of_spelling (hspelling : lexeme.spelling = nameSpelling name) :
    lexeme.token = .word name.toList ∨ lexeme.token = .quoted name.toList := by
  have htoken := nameSpelling_token name
  rwa [← hspelling] at htoken

theorem name?_of_spelling (hspelling : lexeme.spelling = nameSpelling name) (hname : name ≠ "") :
    lexeme.name? = some name := by
  have hsome : name.toList.isEmpty = false := by
    simpa using hname
  rw [Lexeme.name?]
  rcases token_of_spelling hspelling with hword | hquoted
  · simp only [hword, String.ofList_toList]
  · simp [hquoted, hsome]

theorem readName?_of_spelling (hspelling : lexeme.spelling = nameSpelling name) (hname : name ≠ "")
    (rest : List Lexeme) : readName? (lexeme :: rest) = some (name, rest) := by
  rw [readName?, name?_of_spelling hspelling hname, Option.map_some]

/-- A name that no dot follows has no qualifier. -/
theorem readQualifiedName?_of_spelling (hspelling : lexeme.spelling = nameSpelling name)
    (hname : name ≠ "") (rest : List Lexeme) (hdot : ∀ next ∈ rest.head?, next.token ≠ .dot) :
    readQualifiedName? (lexeme :: rest) = some (name, rest) := by
  have hstop : readQualification name rest = (name, rest) := by
    unfold readQualification
    split
    · rfl
    · rw [if_neg (hdot _ rfl)]
    · rw [if_neg (hdot _ rfl)]
  rw [readQualifiedName?, readName?_of_spelling hspelling hname, Option.map_some]
  exact congrArg some hstop

end Names

/-! ## Types -/

theorem typeSpelling_singleton {text : List Char} (hsome : text ≠ [])
    (hchars : ∀ c ∈ text, IsTypeChar c) : typeSpelling [text] = String.ofList text := by
  have hsplit : text.splitOnP Text.isBlank = [text] :=
    List.splitOnP_eq_singleton fun c hmem => by simp [(hchars c hmem).2.2]
  have hupper : Text.upper text = text :=
    Text.upper_eq_self fun c hmem => ⟨(hchars c hmem).1, (hchars c hmem).2.1⟩
  simp [typeSpelling, Text.words, hsplit, hsome, hupper]

/-- The lexemes go on with a constraint or with nothing. -/
def EndsType (lexemes : List Lexeme) : Prop :=
  ∀ lexeme ∈ lexemes.head?, ∃ keyword, lexeme.token = .keyword keyword

theorem readTypeTail?_of_endsType {rest : List Lexeme} (hrest : EndsType rest)
    (words : List (List Char)) (last : List Char) (sized : Bool) :
    readTypeTail? words last sized rest = some (typeSpelling (words ++ [last]), rest) := by
  cases rest with
  | nil => rw [readTypeTail?]
  | cons lexeme more =>
    obtain ⟨keyword, htoken⟩ := hrest lexeme rfl
    rw [readTypeTail?, htoken]
    simp [Token.continuesType?]

theorem flatMap_intercalate {α β : Type} (image : α → List β) (separator : List α)
    (items : List (List α)) :
    (separator.intercalate items).flatMap image =
      (separator.flatMap image).intercalate (items.map fun item => item.flatMap image) := by
  induction items with
  | nil => rfl
  | cons first more ih =>
    cases more with
    | nil => simp
    | cons second others =>
      rw [List.intercalate_cons_cons, List.flatMap_append, List.flatMap_append, ih]
      simp only [List.map_cons, List.intercalate_cons_cons]

theorem flatMap_text_sizeSpellings (sizes : List (List Char)) :
    (sizeSpellings sizes).flatMap Spelling.text = [','].intercalate sizes := by
  rw [sizeSpellings, flatMap_intercalate]
  simp [commaMark, numeralSpelling, Function.comp_def]

/-- The rest of a type is read to the end of some tokens, or some of them are left
over. -/
def ReadsTail (written : List Spelling) (words : List (List Char)) (last : List Char)
    (sized : Bool) (read : String) (leftover : List Spelling) : Prop :=
  ∀ front rest : List Lexeme, front.map Lexeme.spelling = written → EndsType rest →
    ∃ left, left.map Lexeme.spelling = leftover ∧
      readTypeTail? words last sized (front ++ rest) = some (read, left ++ rest)

section Tail

variable {written leftover : List Spelling} {words : List (List Char)} {last : List Char}
  {sized : Bool} {read : String}

theorem readsTail_nil (words : List (List Char)) (last : List Char) (sized : Bool) :
    ReadsTail [] words last sized (typeSpelling (words ++ [last])) [] := by
  intro front rest hfront hrest
  rw [List.map_eq_nil_iff.1 hfront]
  exact ⟨[], rfl, readTypeTail?_of_endsType hrest words last sized⟩

theorem ReadsTail.array {spelling : Spelling} (htoken : spelling.token = .quoted [])
    (htail : ReadsTail written words (last ++ ['[', ']']) sized read leftover) :
    ReadsTail (spelling :: written) words last sized read leftover := by
  intro front rest hfront hrest
  obtain ⟨lexeme, tail, rfl, hlexeme, hmore⟩ := List.map_eq_cons_iff.1 hfront
  have htoken : lexeme.token = .quoted [] := (congrArg Spelling.token hlexeme).trans htoken
  rw [List.cons_append, readTypeTail?, if_neg (by simp [htoken]), if_pos htoken]
  exact htail tail rest hmore hrest

theorem ReadsTail.continuation {spelling : Spelling} {word : List Char}
    (hword : spelling.token.continuesType? = some word)
    (htail : ReadsTail written (words ++ [last]) word sized read leftover) :
    ReadsTail (spelling :: written) words last sized read leftover := by
  intro front rest hfront hrest
  obtain ⟨lexeme, tail, rfl, hlexeme, hmore⟩ := List.map_eq_cons_iff.1 hfront
  have htoken : lexeme.token = spelling.token := congrArg Spelling.token hlexeme
  have hother : spelling.token ≠ .leftParen ∧ spelling.token ≠ .quoted [] := by
    constructor <;> (intro hsame; simp [hsame, Token.continuesType?] at hword)
  rw [List.cons_append, readTypeTail?, htoken, if_neg fun hand => hother.1 hand.1,
    if_neg hother.2]
  simp only [hword]
  exact htail tail rest hmore hrest

/-- A token that goes on with no type is left over with all that follows. -/
theorem readsTail_stop {spelling : Spelling} (hword : spelling.token.continuesType? = none)
    (harray : spelling.token ≠ .quoted []) (hsized : spelling.token = .leftParen → sized = true)
    (written : List Spelling) (words : List (List Char)) (last : List Char) :
    ReadsTail (spelling :: written) words last sized (typeSpelling (words ++ [last]))
      (spelling :: written) := by
  intro front rest hfront _
  refine ⟨front, hfront, ?_⟩
  obtain ⟨lexeme, tail, rfl, hlexeme, -⟩ := List.map_eq_cons_iff.1 hfront
  have htoken : lexeme.token = spelling.token := congrArg Spelling.token hlexeme
  have hgroup : ¬ (spelling.token = .leftParen ∧ sized = false) := by
    rintro ⟨hparen, hnot⟩
    rw [hsized hparen] at hnot
    exact Bool.noConfusion hnot
  rw [List.cons_append, readTypeTail?, htoken, if_neg hgroup, if_neg harray]
  simp only [hword]

theorem ReadsTail.size {inner : List Spelling} (hinner : KeepsDepth .rightParen 0 inner)
    (htail : ReadsTail written words
      (last ++ ('(' :: inner.flatMap Spelling.text ++ [')'])) true read leftover) :
    ReadsTail (openMark :: (inner ++ closeMark :: written)) words last false read leftover := by
  intro front rest hfront hrest
  obtain ⟨opening, tail, rfl, hopening, hmore⟩ := List.map_eq_cons_iff.1 hfront
  obtain ⟨group, behind, rfl, rfl, hbehind⟩ := List.map_eq_append_iff.1 hmore
  obtain ⟨closing, after, rfl, hclosing, hafter⟩ := List.map_eq_cons_iff.1 hbehind
  have hparen : opening.token = .leftParen := congrArg Spelling.token hopening
  have hgroup := closeGroup?_of_keepsDepth hinner (congrArg Spelling.token hclosing) (after ++ rest)
  have hstep : readTypeTail? words last false (opening :: (group ++ closing :: (after ++ rest))) =
      readTypeTail? words (last ++ ('(' :: group.flatMap Lexeme.text ++ [')'])) true
        (after ++ rest) := by
    rw [readTypeTail?, if_pos ⟨hparen, rfl⟩]
    split
    · simp_all
    · simp_all
  have htexts : (group.map Lexeme.spelling).flatMap Spelling.text = group.flatMap Lexeme.text := by
    rw [List.flatMap_map]
    rfl
  rw [List.cons_append, List.append_assoc, List.cons_append, hstep, ← htexts]
  exact htail after rest hafter hrest

/-- The rest of a type is read in the same way wherever it stands. -/
theorem exists_readsTail {inside : Bool} (hwritten : IsFiller inside written)
    (words : List (List Char)) (last : List Char) (sized : Bool) :
    ∃ read leftover, IsFiller inside leftover ∧
      ReadsTail written words last sized read leftover := by
  induction hwritten generalizing words last sized with
  | nil => exact ⟨_, [], .nil, readsTail_nil words last sized⟩
  | @token inside spelling rest hplain hrest ih =>
    by_cases harray : spelling.token = .quoted []
    · obtain ⟨read, leftover, hleftover, htail⟩ := ih words (last ++ ['[', ']']) sized
      exact ⟨read, leftover, hleftover, htail.array harray⟩
    · cases hword : spelling.token.continuesType? with
      | some word =>
        obtain ⟨read, leftover, hleftover, htail⟩ := ih (words ++ [last]) word sized
        exact ⟨read, leftover, hleftover, htail.continuation hword⟩
      | none =>
        exact ⟨_, _, .token hplain hrest, readsTail_stop hword harray
          (fun hparen => absurd hparen hplain.noParen.1) rest words last⟩
  | @group inside inner rest hinner hrest _ ih =>
    cases sized with
    | true =>
      exact ⟨_, _, .group hinner hrest, readsTail_stop rfl (by simp [openMark]) (fun _ => rfl)
        (inner ++ closeMark :: rest) words last⟩
    | false =>
      obtain ⟨read, leftover, hleftover, htail⟩ :=
        ih words (last ++ ('(' :: inner.flatMap Spelling.text ++ [')'])) true
      exact ⟨read, leftover, hleftover,
        htail.size (hinner.keepsDepth isStop_rightParen fun _ => Or.inl rfl)⟩

end Tail

/-- The type is read as another one, with some of its tokens left over perhaps. -/
def ReadsType (type read : String) : Prop :=
  ∃ leftover, IsFiller false leftover ∧ ∀ front rest : List Lexeme,
    front.map Lexeme.spelling = typeSpellings type → EndsType rest →
      ∃ left, left.map Lexeme.spelling = leftover ∧
        readType? (front ++ rest) = some (read, left ++ rest)

theorem readsType_of_readsTail {type read : String} {first : Spelling} {name : List Char}
    {more leftover : List Spelling} (hwritten : typeSpellings type = first :: more)
    (hname : first.token.typeName? = some name) (hleftover : IsFiller false leftover)
    (htail : ReadsTail more [] name false read leftover) : ReadsType type read := by
  refine ⟨leftover, hleftover, fun front rest hfront hrest => ?_⟩
  rw [hwritten] at hfront
  obtain ⟨lexeme, tail, rfl, hlexeme, hmore⟩ := List.map_eq_cons_iff.1 hfront
  have htoken : lexeme.token = first.token := congrArg Spelling.token hlexeme
  rw [List.cons_append, readType?, htoken, hname, Option.bind_some]
  exact htail tail rest hmore hrest

theorem exists_readsType {type : String} (htype : IsLegibleType type) :
    ∃ read, ReadsType type read := by
  obtain ⟨first, more, hwritten, ⟨name, hname⟩, hmore⟩ := htype.exists_cons
  obtain ⟨read, leftover, hleftover, htail⟩ := exists_readsTail hmore [] name false
  exact ⟨read, readsType_of_readsTail hwritten hname hleftover htail⟩

/-- A word with or without sizes is read whole. -/
theorem readsType_self {type : String} (htype : IsWritableType type.toList) :
    ReadsType type type := by
  have hspelling : typeSpelling [type.toList] = type := by
    obtain ⟨c, more, hhead, -⟩ := htype.exists_head
    rw [typeSpelling_singleton (by simp [hhead]) htype.isTypeChar, String.ofList_toList]
  have hname {word : List Char} (hword : IsTypeWord word) :
      (Token.word word).typeName? = some word := by
    simp [Token.typeName?, hword.ne_nil]
  rcases typeSpellings_cases htype with
    ⟨word, hword, htext, hwritten⟩ | ⟨word, sizes, hword, hsizes, htext, hwritten⟩
  · refine readsType_of_readsTail hwritten (hname hword) .nil ?_
    have htail := readsTail_nil [] type.toList false
    rwa [List.nil_append, hspelling, htext] at htail
  · refine readsType_of_readsTail hwritten (hname hword) .nil ?_
    have htail := readsTail_nil [] (word ++ ('(' :: [','].intercalate sizes ++ [')'])) true
    rw [List.nil_append, ← htext, hspelling, htext, ← flatMap_text_sizeSpellings] at htail
    exact htail.size ((isFiller_sizeSpellings sizes).keepsDepth isStop_rightParen
      fun _ => Or.inl rfl)

/-! ## Constraints -/

theorem readConstraints?_cons {draft after : ColumnDraft} {lexeme : Lexeme}
    {rest remaining : List Lexeme}
    (hread : readConstraint? draft lexeme rest = some (after, remaining)) :
    readConstraints? draft (lexeme :: rest) = readConstraints? after remaining := by
  rw [readConstraints?]
  split
  · simp_all
  · simp_all

/-- Tokens that are left over say nothing. -/
theorem readConstraints?_filler {inside : Bool} {written : List Spelling}
    (hfiller : IsFiller inside written) (draft : ColumnDraft) {front : List Lexeme}
    (hfront : front.map Lexeme.spelling = written) (rest : List Lexeme) :
    readConstraints? draft (front ++ rest) = readConstraints? draft rest := by
  induction hfiller generalizing front with
  | nil => rw [List.map_eq_nil_iff.1 hfront, List.nil_append]
  | @token inside spelling more hplain _ ih =>
    obtain ⟨lexeme, tail, rfl, hlexeme, htail⟩ := List.map_eq_cons_iff.1 hfront
    obtain ⟨hkeyword, -, ⟨hparen, -⟩, -⟩ := hplain
    rw [← show lexeme.token = spelling.token from congrArg Spelling.token hlexeme] at hkeyword hparen
    have hskip : readConstraint? draft lexeme (tail ++ rest) = some (draft, tail ++ rest) := by
      rw [readConstraint?.eq_def]
      split <;> simp_all
    rw [List.cons_append, readConstraints?_cons hskip, ih htail]
  | @group inside inner more hinner _ _ ih =>
    obtain ⟨opening, tail, rfl, hopening, htail⟩ := List.map_eq_cons_iff.1 hfront
    obtain ⟨group, behind, rfl, hgroup, hbehind⟩ := List.map_eq_append_iff.1 htail
    obtain ⟨closing, after, rfl, hclosing, hafter⟩ := List.map_eq_cons_iff.1 hbehind
    have hparen : opening.token = .leftParen := congrArg Spelling.token hopening
    have hkeeps : KeepsDepth .rightParen 0 (group.map Lexeme.spelling) := by
      rw [hgroup]
      exact hinner.keepsDepth isStop_rightParen fun _ => Or.inl rfl
    have hread : readGroup? (opening :: (group ++ closing :: (after ++ rest))) =
        some (group, after ++ rest) := by
      rw [readGroup?, expect?, if_pos hparen, Option.bind_some]
      exact closeGroup?_of_keepsDepth hkeeps (congrArg Spelling.token hclosing) (after ++ rest)
    have hskip : readConstraint? draft opening (group ++ closing :: (after ++ rest)) =
        some (draft, after ++ rest) := by
      simp [readConstraint?, hparen, skipGroup, startsWith, hread]
    rw [List.cons_append, List.append_assoc, List.cons_append, readConstraints?_cons hskip,
      ih hafter]

theorem skipKeyword_self {lexeme : Lexeme} {keyword : Keyword}
    (htoken : lexeme.token = .keyword keyword) (rest : List Lexeme) :
    skipKeyword keyword (lexeme :: rest) = rest := by
  simp [skipKeyword, skipWhen, htoken]

theorem skipKeyword_of_ne {keyword : Keyword} {lexemes : List Lexeme}
    (hne : ∀ lexeme ∈ lexemes.head?, lexeme.token ≠ .keyword keyword) :
    skipKeyword keyword lexemes = lexemes := by
  cases lexemes with
  | nil => rfl
  | cons lexeme rest => simp [skipKeyword, skipWhen, hne lexeme rfl]

section Constraints

variable {draft : ColumnDraft} {front rest : List Lexeme}

theorem readConstraints?_nullability {nullability : Nullability}
    (hunknown : draft.column.nullability = .unknown)
    (hfront : front.map Lexeme.spelling = nullabilitySpellings nullability) :
    readConstraints? draft (front ++ rest) =
      readConstraints? { draft with column := { draft.column with nullability } } rest := by
  cases nullability with
  | notNull =>
    obtain ⟨first, more, rfl, hfirst, hmore⟩ := List.map_eq_cons_iff.1 hfront
    obtain ⟨second, rfl, hsecond⟩ := List.map_eq_singleton_iff.1 hmore
    have hnot : first.token = .keyword .not := congrArg Spelling.token hfirst
    have hnull : second.token = .keyword .null := congrArg Spelling.token hsecond
    apply readConstraints?_cons
    simp [readConstraint?, hnot, expectKeyword?, expect?, hnull]
  | nullable =>
    obtain ⟨first, rfl, hfirst⟩ := List.map_eq_singleton_iff.1 hfront
    have hnull : first.token = .keyword .null := congrArg Spelling.token hfirst
    apply readConstraints?_cons
    simp [readConstraint?, hnull]
  | unknown =>
    rw [nullabilitySpellings, List.map_eq_nil_iff] at hfront
    rw [hfront, List.nil_append, ← hunknown]

theorem readConstraints?_unique {isUnique : Bool} (hnot : draft.column.isUnique = false)
    (hfront : front.map Lexeme.spelling = if isUnique then [keywordSpelling .unique] else [])
    (hrest : ∀ lexeme ∈ rest.head?, lexeme.token ≠ .keyword .key) :
    readConstraints? draft (front ++ rest) =
      readConstraints? { draft with column := { draft.column with isUnique } } rest := by
  cases isUnique with
  | true =>
    obtain ⟨first, rfl, hfirst⟩ := List.map_eq_singleton_iff.1 hfront
    have hunique : first.token = .keyword .unique := congrArg Spelling.token hfirst
    rw [List.singleton_append]
    apply readConstraints?_cons
    simp only [readConstraint?, hunique, skipKeyword_of_ne hrest]
    rfl
  | false =>
    rw [if_neg Bool.false_ne_true, List.map_eq_nil_iff] at hfront
    rw [hfront, List.nil_append, ← hnot]

theorem readConstraints?_primaryKey
    (hfront : front.map Lexeme.spelling = [keywordSpelling .primary, keywordSpelling .key]) :
    readConstraints? draft (front ++ rest) =
      readConstraints? { draft with column := { draft.column with isPrimaryKey := true } }
        rest := by
  obtain ⟨first, more, rfl, hfirst, hmore⟩ := List.map_eq_cons_iff.1 hfront
  obtain ⟨second, rfl, hsecond⟩ := List.map_eq_singleton_iff.1 hmore
  have hprimary : first.token = .keyword .primary := congrArg Spelling.token hfirst
  have hkey : second.token = .keyword .key := congrArg Spelling.token hsecond
  rw [List.cons_append, List.singleton_append]
  apply readConstraints?_cons
  simp only [readConstraint?, hprimary, skipKeyword_self hkey]

theorem readNameList_single {opening lexeme closing : Lexeme} {name : String}
    (hopening : opening.token = .leftParen) (hspelling : lexeme.spelling = nameSpelling name)
    (hname : name ≠ "") (hclosing : closing.token = .rightParen) (rest : List Lexeme) :
    readNameList (opening :: lexeme :: closing :: rest) = ([name], rest) := by
  have hflat (stop : Token) (hstop : IsStop stop) :
      KeepsDepth stop 0 ([lexeme].map Lexeme.spelling) := by
    rw [List.map_singleton, hspelling]
    exact (hstop.isFlat_name 0 name).keepsDepth
  have hgroup : readGroup? (opening :: lexeme :: closing :: rest) = some ([lexeme], rest) := by
    rw [readGroup?, expect?, if_pos hopening, Option.bind_some]
    exact closeGroup?_of_keepsDepth (hflat .rightParen isStop_rightParen) hclosing rest
  have hsplit : splitCommas [lexeme] = [[lexeme]] := by
    have hpast := hflat .comma isStop_comma 0 (Nat.le_refl 0)
    have hitem := splitCommasFrom_append [] [] hpast
    exact hitem
  rw [readNameList, hgroup]
  simp [hsplit, name?_of_spelling hspelling hname]

/-- The foreign key that the definition of a column declares. -/
def foreignKeyOf? (column : Column) : Option ForeignKey :=
  column.references.map fun reference => ⟨column.name, reference.table, some reference.column⟩

theorem readConstraints?_reference (column : Column) (hname : draft.column.name = column.name)
    (hnone : draft.foreignKey = none)
    (hnames : ∀ reference ∈ column.references, reference.table ≠ "" ∧ reference.column ≠ "")
    (hfront : front.map Lexeme.spelling = referenceSpellings column) :
    readConstraints? draft front = some { draft with foreignKey := foreignKeyOf? column } := by
  rw [referenceSpellings] at hfront
  cases hreference : column.references with
  | none =>
    rw [hreference, List.map_eq_nil_iff] at hfront
    rw [hfront, readConstraints?, foreignKeyOf?, hreference, Option.map_none, ← hnone]
  | some reference =>
    rw [hreference] at hfront
    obtain ⟨htable, hcolumn⟩ := hnames reference hreference
    obtain ⟨first, more, rfl, hfirst, hmore⟩ := List.map_eq_cons_iff.1 hfront
    obtain ⟨target, more, rfl, htarget, hmore⟩ := List.map_eq_cons_iff.1 hmore
    obtain ⟨opening, more, rfl, hopening, hmore⟩ := List.map_eq_cons_iff.1 hmore
    obtain ⟨key, more, rfl, hkey, hmore⟩ := List.map_eq_cons_iff.1 hmore
    obtain ⟨closing, rfl, hclosing⟩ := List.map_eq_singleton_iff.1 hmore
    have hreferences : first.token = .keyword .references := congrArg Spelling.token hfirst
    have hparen : opening.token = .leftParen := congrArg Spelling.token hopening
    have hqualified := readQualifiedName?_of_spelling htarget htable
      [opening, key, closing] (by simp [hparen])
    have hlist := readNameList_single hparen hkey hcolumn (congrArg Spelling.token hclosing) []
    have hread : readConstraint? draft first [target, opening, key, closing] =
        some ({ draft with foreignKey := foreignKeyOf? column }, []) := by
      simp [readConstraint?, hreferences, hqualified, hlist, skipActions, foreignKeyOf?, hreference,
        hname]
    rw [readConstraints?_cons hread, readConstraints?]

end Constraints

/-! ## Columns -/

/-- The constraints of a column are keywords, and none that begins a statement. -/
theorem constraintSpellings_keyword {column : Column} :
    ∀ spelling ∈ constraintSpellings column,
      ∃ keyword, spelling.token = .keyword keyword ∧ keyword ≠ .create ∧ keyword ≠ .alter := by
  have hnull (nullability : Nullability) : ∀ spelling ∈ nullabilitySpellings nullability,
      ∃ keyword, spelling.token = .keyword keyword ∧ keyword ≠ .create ∧ keyword ≠ .alter := by
    cases nullability <;> simp [nullabilitySpellings, keywordSpelling]
  rw [constraintSpellings]
  split
  · simp [keywordSpelling]
  · refine List.forall_mem_append.2 ⟨?_, hnull column.nullability⟩
    split <;> simp [keywordSpelling]

theorem spelling_mem_head? {lexeme : Lexeme} {lexemes : List Lexeme}
    (hhead : lexeme ∈ lexemes.head?) :
    lexeme.spelling ∈ (lexemes.map Lexeme.spelling).head? := by
  rw [List.head?_map]
  exact Option.mem_map_of_mem Lexeme.spelling hhead

theorem head?_ne_key (nullability : Nullability) (column : Column) :
    ∀ spelling ∈ (nullabilitySpellings nullability ++ referenceSpellings column).head?,
      spelling.token ≠ .keyword .key := by
  cases nullability with
  | notNull => simp [nullabilitySpellings, keywordSpelling]
  | nullable => simp [nullabilitySpellings, keywordSpelling]
  | unknown =>
    rw [nullabilitySpellings, List.nil_append, referenceSpellings]
    cases column.references <;> simp [keywordSpelling]

theorem endsType_of_spelling {column : Column} {lexemes : List Lexeme}
    (hlexemes : lexemes.map Lexeme.spelling =
      constraintSpellings column ++ referenceSpellings column) : EndsType lexemes := by
  intro lexeme hhead
  have hspelling := spelling_mem_head? hhead
  rw [hlexemes] at hspelling
  cases hconstraints : constraintSpellings column with
  | nil =>
    rw [hconstraints, List.nil_append, referenceSpellings] at hspelling
    split at hspelling
    · simp at hspelling
    · exact ⟨.references, (congrArg Spelling.token (Option.some.inj hspelling)).symm⟩
  | cons first more =>
    rw [hconstraints] at hspelling
    obtain ⟨keyword, htoken, -⟩ :=
      constraintSpellings_keyword first (hconstraints ▸ List.mem_cons_self)
    exact ⟨keyword, (congrArg Spelling.token (Option.some.inj hspelling)).symm.trans htoken⟩

section Columns

variable {column : Column}

/-- What the constraints of a column with a type say, before its being a primary key
has its effect. -/
def constrainedColumn (type : String) (column : Column) : Column :=
  if column.isPrimaryKey then
    { name := column.name, type, isPrimaryKey := true }
  else
    { name := column.name, type, isUnique := column.isUnique, nullability := column.nullability }

theorem finish_constrainedColumn (read : String → String) (column : Column) :
    ColumnDraft.finish ⟨constrainedColumn (read column.type) column, foreignKeyOf? column⟩ =
      ⟨(column.echo read).clearReference, foreignKeyOf? column⟩ := by
  rw [constrainedColumn, ColumnDraft.finish, Column.echo]
  by_cases hprimary : column.isPrimaryKey = true
  · simp [hprimary, Column.asPrimaryKey, Column.clearReference]
  · simp [hprimary, Column.clearReference]

theorem readConstraints?_of_spelling (type : String)
    (hnames : ∀ reference ∈ column.references, reference.table ≠ "" ∧ reference.column ≠ "")
    {lexemes : List Lexeme} (hlexemes : lexemes.map Lexeme.spelling =
      constraintSpellings column ++ referenceSpellings column) :
    readConstraints? { column := { name := column.name, type } } lexemes =
      some ⟨constrainedColumn type column, foreignKeyOf? column⟩ := by
  obtain ⟨front, back, rfl, hfront, hback⟩ := List.map_eq_append_iff.1 hlexemes
  rw [constraintSpellings] at hfront
  rw [constrainedColumn]
  split at hfront
  · rename_i hprimary
    rw [readConstraints?_primaryKey hfront,
      readConstraints?_reference column rfl rfl hnames hback, if_pos hprimary]
  · rename_i hprimary
    obtain ⟨unique, nulls, rfl, hunique, hnulls⟩ := List.map_eq_append_iff.1 hfront
    have hkey : ∀ lexeme ∈ (nulls ++ back).head?, lexeme.token ≠ .keyword .key := by
      intro lexeme hhead
      have hspelling := spelling_mem_head? hhead
      rw [List.map_append, hnulls, hback] at hspelling
      exact head?_ne_key _ column _ hspelling
    rw [List.append_assoc, readConstraints?_unique rfl hunique hkey,
      readConstraints?_nullability rfl hnulls,
      readConstraints?_reference column rfl rfl hnames hback, if_neg hprimary]

/-- A written column is read with its flags and its reference, and with the type that
its type is read as. -/
theorem readColumn?_of_spelling (hcolumn : column.IsLegible) {read : String → String}
    (hread : ReadsType column.type (read column.type)) {lexemes : List Lexeme}
    (hlexemes : lexemes.map Lexeme.spelling = columnSpellings column) :
    readColumn? lexemes = some ⟨(column.echo read).clearReference, foreignKeyOf? column⟩ := by
  obtain ⟨name, rest, rfl, hname, hrest⟩ := List.map_eq_cons_iff.1 hlexemes
  obtain ⟨type, constraints, rfl, htype, hconstraints⟩ := List.map_eq_append_iff.1 hrest
  obtain ⟨leftover, hfiller, hreads⟩ := hread
  obtain ⟨left, hleft, hreadType⟩ :=
    hreads type constraints htype (endsType_of_spelling hconstraints)
  have hnames : ∀ reference ∈ column.references,
      reference.table ≠ "" ∧ reference.column ≠ "" := fun reference hreference =>
    ⟨(hcolumn.target reference hreference).1.nonempty,
      (hcolumn.target reference hreference).2.nonempty⟩
  have hskip := readConstraints?_filler hfiller
    { column := { name := column.name, type := read column.type } } hleft constraints
  have hconstrained := readConstraints?_of_spelling (read column.type) hnames hconstraints
  simp only [readColumn?, readName?_of_spelling hname hcolumn.name.nonempty, hreadType, hskip,
    hconstrained, finish_constrainedColumn, Option.bind_eq_bind, Option.bind_some,
    Option.pure_def]

end Columns

end Sql

end Crowfoot
