import Crowfoot.Mermaid.Writer
import Crowfoot.Proofs.Schema.Names
import Crowfoot.Proofs.Text.Blanks
import Crowfoot.Proofs.Text.Classes

/-!
# Written diagrams

A diagram is written in whole lines.  The lines that count are the header, those
of the blocks and those of the relationships, each without the blanks around it;
padding adds blanks only, and no name or type can be taken for anything else.
-/

namespace Crowfoot.Mermaid

/-! ## Names and types -/

/-- What a name or a type may start with. -/
def isWordStart (c : Char) : Bool :=
  Text.isAlphanumeric c || c == '_'

theorem isBlank_of_isEntityChar {c : Char} (hc : isEntityChar c = true) :
    Text.isBlank c = false := by
  simp only [isEntityChar, Bool.or_eq_true, beq_iff_eq] at hc
  rcases hc with (halphanumeric | rfl) | rfl
  · exact Text.isBlank_of_isAlphanumeric halphanumeric
  · decide
  · decide

theorem isEntityChar_of_isWordStart {c : Char} (hc : isWordStart c = true) :
    isEntityChar c = true :=
  Bool.or_eq_true_iff.2 (Or.inl hc)

theorem isWordStart_of_isEntityChar {c : Char} (hc : isEntityChar c = true) (hdash : c ≠ '-') :
    isWordStart c = true := by
  simp only [isEntityChar, Bool.or_eq_true, beq_iff_eq] at hc
  simpa [isWordStart] using hc.resolve_right hdash

/-- A character of another kind is not among some of one kind. -/
theorem notMem_of_all {test : Char → Bool} {text : List Char} {c : Char}
    (htext : text.all test = true) (hc : test c = false) : c ∉ text := by
  intro hmem
  have hpass := List.all_eq_true.1 htext c hmem
  rw [hc] at hpass
  exact Bool.noConfusion hpass

section EntityName

variable {name : List Char} (hname : isEntityName name = true)

include hname

theorem all_isEntityChar : name.all isEntityChar = true := by
  simp only [isEntityName, Bool.and_eq_true] at hname
  exact hname.1.2

theorem exists_cons_of_isEntityName :
    ∃ first rest, name = first :: rest ∧ isWordStart first = true := by
  have hall := all_isEntityChar hname
  cases name with
  | nil => simp [isEntityName] at hname
  | cons first rest =>
    have hdash : first ≠ '-' := by simpa [isEntityName] using (Bool.and_eq_true_iff.1 hname).2
    have hfirst := List.all_eq_true.1 hall first List.mem_cons_self
    exact ⟨first, rest, rfl, isWordStart_of_isEntityChar hfirst hdash⟩

theorem ne_nil_of_isEntityName : name ≠ [] := by
  obtain ⟨first, rest, rfl, -⟩ := exists_cons_of_isEntityName hname
  exact List.cons_ne_nil first rest

theorem isBlank_of_mem_entityName : ∀ c ∈ name, Text.isBlank c = false :=
  fun c hmem => isBlank_of_isEntityChar (List.all_eq_true.1 (all_isEntityChar hname) c hmem)

theorem isAttributeWord_of_isEntityName : isAttributeWord name = true := by
  have hall := all_isEntityChar hname
  obtain ⟨first, rest, rfl, hfirst⟩ := exists_cons_of_isEntityName hname
  refine Bool.and_eq_true_iff.2 ⟨hfirst, List.all_eq_true.2 fun c hmem => ?_⟩
  have hc := List.all_eq_true.1 hall c hmem
  have hother (d : Char) (hd : isEntityChar d = false) : (c != d) = true :=
    bne_iff_ne.2 fun heq => by simp [heq, hd] at hc
  rw [hother '\x7b' (by decide), hother '\x7d' (by decide), hother '\x22' (by decide)]
  rfl

end EntityName

theorem exists_cons_of_isAttributeWord {word : List Char} (hword : isAttributeWord word = true) :
    ∃ first rest, word = first :: rest ∧ isWordStart first = true := by
  cases word with
  | nil => cases hword
  | cons first rest => exact ⟨first, rest, rfl, (Bool.and_eq_true_iff.1 hword).1⟩

theorem isEntityName_cons {first : Char} {rest : List Char} (hfirst : isWordStart first = true)
    (hrest : rest.all isEntityChar = true) : isEntityName (first :: rest) = true := by
  have hdash : first ≠ '-' := by
    rintro rfl
    exact absurd hfirst (by decide)
  simpa [isEntityName, isEntityChar_of_isWordStart hfirst, hdash] using List.all_eq_true.1 hrest

/-- Whatever a name is, what stands for it is the name of an entity. -/
theorem isEntityName_fitName (text : List Char) : isEntityName (fitName text) = true := by
  have hall : ((Text.trim text).map fun c => if isEntityChar c then c else '_').all
      isEntityChar = true := by
    rw [List.all_map, List.all_eq_true]
    intro c _
    by_cases hc : isEntityChar c = true
    · simp [hc]
    · simp only [Function.comp_apply, if_neg hc]
      decide
  rw [fitName]
  split
  · decide
  · rename_i rest hfitted
    rw [hfitted] at hall
    exact isEntityName_cons (by decide) hall
  · rename_i hnil hdash
    cases hfitted : (Text.trim text).map fun c => if isEntityChar c then c else '_' with
    | nil => exact absurd hfitted hnil
    | cons first rest =>
      rw [hfitted, List.all_cons, Bool.and_eq_true] at hall
      apply isEntityName_cons (isWordStart_of_isEntityChar hall.1 ?_) hall.2
      rintro rfl
      exact hdash rest hfitted

theorem isEntityName_of_entityName {name : String} (hname : entityName name = name) :
    isEntityName name.toList = true := by
  have hfit := isEntityName_fitName name.toList
  rwa [← String.toList_ofList (l := fitName name.toList), ← entityName, hname] at hfit

theorem isBlank_of_mem_fitType (type : List Char) : ∀ c ∈ fitType type, Text.isBlank c = false := by
  rw [fitType]
  split
  · decide
  · exact Text.forall_mem_intercalate (by decide) fun word hword =>
      Text.isBlank_of_mem_words hword

/-! ## Lines -/

/-- The lines of a text that count, without the blanks around them. -/
def lineTexts (text : List Char) : List (List Char) :=
  ((Text.linesOf text).map Text.trim).filter fun line => !isIgnored line

theorem map_text_ofRawLines (start : Nat) (raws : List (List Char)) :
    (Line.ofRawLines start raws).map Line.text =
      (raws.map Text.trim).filter fun line => !isIgnored line := by
  fun_induction Line.ofRawLines start raws with
  | case1 => rfl
  | case2 start raw rest text tail hignored ih => simp [ih, text, tail, hignored]
  | case3 start raw rest text tail hcounts ih => simp [ih, text, tail, hcounts]

theorem map_text_ofText (text : List Char) : (Line.ofText text).map Line.text = lineTexts text :=
  map_text_ofRawLines 0 (Text.linesOf text)

/-- The text consists of whole lines, which say this without the blanks around them. -/
def Says (text : List Char) (lines : List (List Char)) : Prop :=
  ∀ rest, (Text.linesOf (text ++ rest)).map Text.trim =
    lines ++ (Text.linesOf rest).map Text.trim

theorem says_nil : Says [] [] :=
  fun _ => rfl

theorem Says.append {left right : List Char} {leftLines rightLines : List (List Char)}
    (hleft : Says left leftLines) (hright : Says right rightLines) :
    Says (left ++ right) (leftLines ++ rightLines) := by
  intro rest
  rw [List.append_assoc, hleft, hright, List.append_assoc]

theorem Says.flatMap {α : Type} {items : List α} {write : α → List Char}
    {read : α → List (List Char)} (hitems : ∀ item ∈ items, Says (write item) (read item)) :
    Says (items.flatMap write) (items.flatMap read) := by
  induction items with
  | nil => exact says_nil
  | cons first rest ih =>
    obtain ⟨hfirst, hrest⟩ := List.forall_mem_cons.1 hitems
    exact hfirst.append (ih hrest)

theorem Says.map_trim_linesOf {text : List Char} {lines : List (List Char)}
    (hsaid : Says text lines) : (Text.linesOf text).map Text.trim = lines := by
  have hall := hsaid []
  rwa [List.append_nil, Text.linesOf, List.map_nil, List.append_nil] at hall

/-- Of the lines that a text says, those count that are not ignored. -/
theorem Says.lineTexts_eq {text : List Char} {lines : List (List Char)} (hsaid : Says text lines) :
    lineTexts text = lines.filter fun line => !isIgnored line := by
  rw [lineTexts, hsaid.map_trim_linesOf]

theorem says_line {line : List Char} (hline : '\n' ∉ line) :
    Says (line ++ ['\n']) [Text.trim (line ++ ['\n'])] := by
  intro rest
  rw [List.append_assoc, List.singleton_append, Text.linesOf_append hline, List.map_cons]
  rfl

/-- A line that starts like a name counts. -/
theorem isIgnored_of_isWordStart {first : Char} (hfirst : isWordStart first = true)
    (rest : List Char) : isIgnored (first :: rest) = false := by
  have hpercent : first ≠ '%' := by
    rintro rfl
    exact absurd hfirst (by decide)
  simp [isIgnored, List.isPrefixOf, Ne.symm hpercent]

/-- The blanks around a line are not said. -/
theorem says_indented {front line : List Char} (hfront : ∀ c ∈ front, Text.isBlank c = true)
    (hline : '\n' ∉ front ++ line) : Says (front ++ line ++ ['\n']) [Text.trim line] := by
  have hsaid := says_line hline
  rwa [Text.trim_concat (by decide), Text.trim_blanks_append hfront] at hsaid

/-! ## Attributes -/

theorem mem_padTo {width : Nat} {text : String} {c : Char}
    (hmem : c ∈ (Text.padTo width text).toList) : c ∈ text.toList ∨ c = ' ' := by
  rw [Text.padTo, String.toList_append, String.toList_ofList] at hmem
  exact (List.mem_append.1 hmem).imp_right List.eq_of_mem_replicate

/-- The spaces that pad a text go behind a space that follows it. -/
theorem padTo_append_space (width : Nat) (text : String) (rest : List Char) :
    (Text.padTo width text).toList ++ ' ' :: rest =
      text.toList ++ ' ' :: (List.replicate (width - Text.displayWidth text) ' ' ++ rest) := by
  rw [Text.padTo, String.toList_append, String.toList_ofList, List.append_assoc,
    ← List.cons_append, ← List.replicate_succ, List.replicate_succ', List.append_assoc,
    List.singleton_append]

/-- A padded word and a space make the word. -/
theorem words_padTo {width : Nat} {text : String} (hsome : text.toList ≠ [])
    (htext : ∀ c ∈ text.toList, Text.isBlank c = false) (rest : List Char) :
    Text.words ((Text.padTo width text).toList ++ (' ' :: rest)) =
      text.toList :: Text.words rest := by
  rw [padTo_append_space, ← List.singleton_append, Text.words_word_append hsome htext
    (List.cons_ne_nil _ _) (by decide), Text.words_blanks_append fun c => Text.isBlank_of_mem_spaces]

/-- The marks of a column are told apart by their words. -/
theorem readMarks_markText (column : Column) :
    (readMarks (Text.words (markText column).toList)).contains "PK".toList = column.isPrimaryKey ∧
      (readMarks (Text.words (markText column).toList)).contains "UK".toList =
        (column.isUnique && !column.isPrimaryKey) ∧
      (readMarks (Text.words (markText column).toList)).contains "FK".toList =
        column.isForeignKey := by
  rw [markText]
  cases column.isPrimaryKey <;> cases column.isForeignKey <;> cases column.isUnique <;>
    decide +kernel

theorem mem_markText {column : Column} :
    ∀ c ∈ (markText column).toList, c ∈ ['P', 'K', 'F', 'U', ',', ' '] := by
  rw [markText]
  cases column.isPrimaryKey <;> cases column.isForeignKey <;> cases column.isUnique <;>
    decide +kernel

/-- A column that is listed under its own name with a type that makes a word. -/
structure IsDrawableColumn (column : Column) : Prop where
  name : entityName column.name = column.name
  listed : column.isVirtual = false
  type : isAttributeWord (typeName column).toList = true
  consistent : column.IsConsistent

/-- What an attribute line says, with blanks at the end perhaps. -/
def attributeBody (typeWidth nameWidth : Nat) (column : Column) : String :=
  if (markText column).isEmpty then
    Text.padTo typeWidth (typeName column) ++ " " ++ entityName column.name
  else
    Text.padTo typeWidth (typeName column) ++ " " ++
      Text.padTo nameWidth (entityName column.name) ++ " " ++ markText column

/-- The attribute line of a column. -/
def attributeLine (typeWidth nameWidth : Nat) (column : Column) : List Char :=
  Text.trim (Text.trimEnd (attributeBody typeWidth nameWidth column).toList)

/-- The attribute that a column is drawn as. -/
def drawnAttribute (column : Column) : Attribute where
  type := typeName column
  name := column.name
  isPrimaryKey := column.isPrimaryKey
  isUnique := column.isUnique && !column.isPrimaryKey
  isForeignKey := column.isForeignKey

theorem isBlank_of_mem_typeName (column : Column) :
    ∀ c ∈ (typeName column).toList, Text.isBlank c = false := by
  rw [typeName, String.toList_ofList]
  exact isBlank_of_mem_fitType _

theorem typeName_ne_nil (column : Column) : (typeName column).toList ≠ [] := by
  rw [typeName, String.toList_ofList, fitType]
  split
  · decide
  · rename_i hsome
    obtain ⟨word, more, hwords⟩ := List.exists_cons_of_ne_nil hsome
    have hword : word ∈ Text.words column.type.toList := hwords ▸ List.mem_cons_self
    have hfirst : word ≠ [] := by simpa using (List.mem_filter.1 hword).2
    intro hnil
    have hprefix := Text.prefix_intercalate ['_'] word more
    rw [← hwords, hnil] at hprefix
    exact hfirst (List.prefix_nil.1 hprefix)

section AttributeLine

variable (typeWidth nameWidth : Nat) (column : Column)

/-- What an attribute line says behind the type. -/
def attributeRest (nameWidth : Nat) (column : Column) : List Char :=
  if (markText column).isEmpty then
    (entityName column.name).toList
  else
    (Text.padTo nameWidth (entityName column.name)).toList ++ ' ' :: (markText column).toList

theorem attributeBody_eq :
    (attributeBody typeWidth nameWidth column).toList =
      (typeName column).toList ++ ' ' ::
        (List.replicate (typeWidth - Text.displayWidth (typeName column)) ' ' ++
          attributeRest nameWidth column) := by
  rw [← padTo_append_space, attributeBody, attributeRest]
  split
  · simp [String.toList_append]
  · simp [String.toList_append]

theorem isEntityName_entityName (name : String) : isEntityName (entityName name).toList = true := by
  rw [entityName, String.toList_ofList]
  exact isEntityName_fitName _

theorem mem_attributeRest :
    ∀ c ∈ attributeRest nameWidth column, isEntityChar c = true ∨ c = ',' ∨ c = ' ' := by
  have hname : ∀ c ∈ (entityName column.name).toList, isEntityChar c = true ∨ c = ',' ∨ c = ' ' :=
    fun c hmem => Or.inl
      (List.all_eq_true.1 (all_isEntityChar (isEntityName_entityName column.name)) c hmem)
  have hmarks : ∀ c ∈ ['P', 'K', 'F', 'U', ',', ' '],
      isEntityChar c = true ∨ c = ',' ∨ c = ' ' := by decide
  rw [attributeRest]
  split
  · exact hname
  · refine List.forall_mem_append.2 ⟨fun c hmem => ?_, List.forall_mem_cons.2
      ⟨Or.inr (Or.inr rfl), fun c hmem => hmarks c (mem_markText c hmem)⟩⟩
    rcases mem_padTo hmem with hin | rfl
    · exact hname c hin
    · exact Or.inr (Or.inr rfl)

theorem words_attributeRest :
    Text.words (attributeRest nameWidth column) =
      (entityName column.name).toList :: Text.words (markText column).toList := by
  have hname := isEntityName_entityName column.name
  have hword := isBlank_of_mem_entityName hname
  rw [attributeRest]
  split
  · rename_i hempty
    rw [String.isEmpty_iff.1 hempty, Text.words_eq_singleton (ne_nil_of_isEntityName hname) hword]
    rfl
  · exact words_padTo (ne_nil_of_isEntityName hname) hword _

/-- Trimming the end of a text that starts with the type stops at the last word behind it. -/
theorem trimEnd_typeName_append {rest : List Char} (hsome : Text.words rest ≠ []) :
    Text.trimEnd ((typeName column).toList ++ ' ' :: rest) =
      (typeName column).toList ++ ' ' :: Text.trimEnd rest := by
  rw [← List.singleton_append, ← List.append_assoc, Text.trimEnd_append_of_words hsome,
    List.append_assoc]
  rfl

/-- No blanks stand in front of the type. -/
theorem trimStart_typeName_append (rest : List Char) :
    Text.trimStart ((typeName column).toList ++ rest) = (typeName column).toList ++ rest := by
  obtain ⟨first, tail, htype⟩ := List.exists_cons_of_ne_nil (typeName_ne_nil column)
  have hblank : Text.isBlank first = false :=
    isBlank_of_mem_typeName column first (htype ▸ List.mem_cons_self)
  rw [htype]
  exact List.dropWhile_cons_of_neg (by simp [hblank])

/-- An attribute line has no blanks around it; it starts with the type, and the rest is the
name and the marks. -/
theorem exists_attributeLine :
    ∃ rest, attributeLine typeWidth nameWidth column = (typeName column).toList ++ ' ' :: rest ∧
      attributeLine typeWidth nameWidth column =
        Text.trimEnd (attributeBody typeWidth nameWidth column).toList ∧
      (∀ c ∈ rest, isEntityChar c = true ∨ c = ',' ∨ c = ' ') ∧
      Text.words rest = (entityName column.name).toList :: Text.words (markText column).toList := by
  have hbody := attributeBody_eq typeWidth nameWidth column
  set rest := List.replicate (typeWidth - Text.displayWidth (typeName column)) ' ' ++
    attributeRest nameWidth column with hrest
  have hwords : Text.words rest =
      (entityName column.name).toList :: Text.words (markText column).toList := by
    rw [hrest, Text.words_blanks_append fun c => Text.isBlank_of_mem_spaces, words_attributeRest]
  have hchars : ∀ c ∈ rest, isEntityChar c = true ∨ c = ',' ∨ c = ' ' :=
    List.forall_mem_append.2 ⟨fun c hmem => Or.inr (Or.inr (List.eq_of_mem_replicate hmem)),
      mem_attributeRest nameWidth column⟩
  have hsome : Text.words rest ≠ [] := by simp [hwords]
  have hsomeEnd : Text.words (Text.trimEnd rest) ≠ [] := by rwa [Text.words_trimEnd]
  have htrimmed : Text.trimEnd (attributeBody typeWidth nameWidth column).toList =
      (typeName column).toList ++ ' ' :: Text.trimEnd rest := by
    rw [hbody, trimEnd_typeName_append column hsome]
  have hline : attributeLine typeWidth nameWidth column =
      (typeName column).toList ++ ' ' :: Text.trimEnd rest := by
    rw [attributeLine, htrimmed, Text.trim, trimStart_typeName_append,
      trimEnd_typeName_append column hsomeEnd, Text.trimEnd_trimEnd]
  refine ⟨Text.trimEnd rest, hline, hline.trans htrimmed.symm, fun c hmem => ?_, ?_⟩
  · exact hchars c (Text.mem_of_mem_trimEnd hmem)
  · rw [Text.words_trimEnd, hwords]

theorem trim_attributeLine :
    Text.trim (attributeLine typeWidth nameWidth column) =
      attributeLine typeWidth nameWidth column :=
  Text.trim_trim _

/-- The text of an attribute is one line. -/
theorem says_attributeText :
    Says (attributeText typeWidth nameWidth column).toList
      [attributeLine typeWidth nameWidth column] := by
  obtain ⟨rest, hline, hbody, hchars, -⟩ := exists_attributeLine typeWidth nameWidth column
  have hlineFeed : '\n' ∉ "        ".toList ++ attributeLine typeWidth nameWidth column := by
    rw [hline]
    simp only [List.mem_append, List.mem_cons, not_or]
    refine ⟨by decide, fun hmem => ?_, by decide, fun hmem => ?_⟩
    · exact absurd (isBlank_of_mem_typeName column '\n' hmem) (by decide)
    · exact absurd (hchars '\n' hmem) (by decide)
  have htext : (attributeText typeWidth nameWidth column).toList =
      "        ".toList ++ attributeLine typeWidth nameWidth column ++ ['\n'] := by
    rw [hbody]
    change ("        " ++ String.ofList (Text.trimEnd
      (attributeBody typeWidth nameWidth column).toList) ++ "\n").toList = _
    simp only [String.toList_append, String.toList_ofList]
    rfl
  have hsaid := says_indented (by decide) hlineFeed
  rwa [← htext, trim_attributeLine] at hsaid

/-- An attribute line starts a comment exactly when its type does. -/
theorem isIgnored_attributeLine :
    isIgnored (attributeLine typeWidth nameWidth column) =
      "%%".toList.isPrefixOf (typeName column).toList := by
  obtain ⟨rest, hline, -⟩ := exists_attributeLine typeWidth nameWidth column
  rw [hline]
  obtain ⟨first, tail, htype⟩ := List.exists_cons_of_ne_nil (typeName_ne_nil column)
  rw [htype]
  cases tail <;> simp [isIgnored, List.isPrefixOf]

/-- No attribute line closes a block. -/
theorem cutClosingBrace_attributeLine :
    cutClosingBrace (attributeLine typeWidth nameWidth column) =
      (attributeLine typeWidth nameWidth column, false) := by
  obtain ⟨rest, hline, -, hchars, -⟩ := exists_attributeLine typeWidth nameWidth column
  have hopen : (attributeLine typeWidth nameWidth column).getLast? ≠ some '\x7d' := by
    rw [hline, List.getLast?_append_cons]
    intro hlast
    rcases List.mem_cons.1 (List.mem_of_getLast? hlast) with hspace | hmem
    · exact absurd hspace (by decide)
    · exact absurd (hchars '\x7d' hmem) (by decide)
  rw [cutClosingBrace, trim_attributeLine]
  exact if_neg hopen

/-- Where a type has a quote, no more than one word stands in front of it. -/
theorem readAttribute?_eq_none_of_quote {type : List Char}
    (hblanks : ∀ c ∈ type, Text.isBlank c = false) (hquote : '\x22' ∈ type) (rest : List Char) :
    readAttribute? (type ++ rest) = none := by
  obtain ⟨front, back, rfl, hfront⟩ := List.eq_append_cons_of_mem hquote
  have hpass : ∀ c ∈ front, (c != '\x22') = true :=
    fun c hmem => bne_iff_ne.2 fun heq => hfront (heq ▸ hmem)
  have hcut : (front ++ '\x22' :: back ++ rest).takeWhile (· != '\x22') = front := by
    rw [List.append_assoc, List.takeWhile_append_of_pos hpass, List.cons_append,
      List.takeWhile_cons_of_neg (by decide), List.append_nil]
  rw [readAttribute?, hcut]
  cases front with
  | nil => rfl
  | cons first tail =>
    rw [Text.words_eq_singleton (List.cons_ne_nil first tail) fun c hmem =>
      hblanks c (List.mem_append_left _ hmem)]

/-- An attribute line is read exactly when the type makes a word. -/
theorem readAttribute?_attributeLine :
    readAttribute? (attributeLine typeWidth nameWidth column) =
      if isAttributeWord (typeName column).toList then
        some (drawnAttribute { column with name := entityName column.name })
      else
        none := by
  obtain ⟨rest, hline, -, hchars, hwords⟩ := exists_attributeLine typeWidth nameWidth column
  have hblanks := isBlank_of_mem_typeName column
  rw [hline]
  by_cases hquote : '\x22' ∈ (typeName column).toList
  · have hword : ¬ isAttributeWord (typeName column).toList = true := fun hword =>
      notMem_of_all (Bool.and_eq_true_iff.1 hword).2 (c := '\x22') (by decide) hquote
    rw [if_neg hword, readAttribute?_eq_none_of_quote hblanks hquote]
  · have hpass : ∀ c ∈ (typeName column).toList ++ ' ' :: rest, (c != '\x22') = true := by
      intro c hmem
      rw [bne_iff_ne]
      rintro rfl
      rcases List.mem_append.1 hmem with htype | hrest
      · exact hquote htype
      · rcases List.mem_cons.1 hrest with hspace | hrest
        · exact absurd hspace (by decide)
        · exact absurd (hchars '\x22' hrest) (by decide)
    have hname := isAttributeWord_of_isEntityName (isEntityName_entityName column.name)
    have hall : Text.words ((typeName column).toList ++ ' ' :: rest) =
        (typeName column).toList :: (entityName column.name).toList ::
          Text.words (markText column).toList := by
      rw [← List.singleton_append, Text.words_word_append (typeName_ne_nil column) hblanks
        (List.cons_ne_nil _ _) (by decide), hwords]
    obtain ⟨hprimary, hunique, hforeign⟩ := readMarks_markText column
    rw [readAttribute?, List.takeWhile_eq_self_iff.2 hpass, hall]
    simp only [hname, Bool.and_true, hprimary, hunique, hforeign, String.ofList_toList]
    rfl

end AttributeLine

section Drawable

variable {column : Column} (hcolumn : IsDrawableColumn column) (typeWidth nameWidth : Nat)

include hcolumn

theorem IsDrawableColumn.isIgnored_attributeLine :
    isIgnored (attributeLine typeWidth nameWidth column) = false := by
  obtain ⟨first, tail, htype, hfirst⟩ := exists_cons_of_isAttributeWord hcolumn.type
  obtain ⟨rest, hline, -⟩ := exists_attributeLine typeWidth nameWidth column
  rw [hline, htype]
  exact isIgnored_of_isWordStart hfirst _

/-- An attribute line reads as the attribute it was written for. -/
theorem IsDrawableColumn.readAttribute?_attributeLine :
    readAttribute? (attributeLine typeWidth nameWidth column) = some (drawnAttribute column) := by
  rw [Mermaid.readAttribute?_attributeLine, if_pos hcolumn.type, hcolumn.name]

end Drawable

/-! ## Blocks -/

/-- The lines of the block of a table. -/
def blockLines (table : Table) : List (List Char) :=
  let typeWidth := Text.widest (table.columns.map typeName)
  let nameWidth := Text.widest (table.columns.map fun column => entityName column.name)
  (table.name.toList ++ " \x7b".toList) :: table.columns.map (attributeLine typeWidth nameWidth) ++
    ["\x7d".toList]

/-- The table has its own name and columns that are drawable. -/
structure IsDrawableTable (table : Table) : Prop where
  name : entityName table.name = table.name
  columns : ∀ column ∈ table.columns, IsDrawableColumn column
  distinct : DistinctNames (table.columns.map Column.name)

/-- A line between marks that are no blanks is indented. -/
theorem says_indentedLine {line : List Char} {first last : Char} (hfirst : line.head? = some first)
    (hstart : isWordStart first = true) (hlast : line.getLast? = some last)
    (hend : Text.isBlank last = false) (hline : '\n' ∉ line) :
    Says ("    ".toList ++ line ++ ['\n']) [line] := by
  have hblank := isBlank_of_isEntityChar (isEntityChar_of_isWordStart hstart)
  have htrim : Text.trim line = line :=
    Text.trim_eq_self (by simpa [hfirst] using hblank) (by simpa [hlast] using hend)
  have hindented : '\n' ∉ "    ".toList ++ line := by
    rw [List.mem_append, not_or]
    exact ⟨by decide, hline⟩
  have hsaid := says_indented (by decide) hindented
  rwa [htrim] at hsaid

theorem lineFeed_notMem_entityName {name : List Char} (hname : isEntityName name = true) :
    '\n' ∉ name :=
  notMem_of_all (all_isEntityChar hname) (by decide)

/-- A line that starts with the name of an entity counts. -/
theorem isIgnored_of_isEntityName {name : List Char} (hname : isEntityName name = true)
    (rest : List Char) : isIgnored (name ++ rest) = false := by
  obtain ⟨first, tail, rfl, hfirst⟩ := exists_cons_of_isEntityName hname
  exact isIgnored_of_isWordStart hfirst (tail ++ rest)

theorem says_nameLine {name : String} (hname : isEntityName name.toList = true) :
    Says ("    " ++ name ++ " \x7b\n").toList [name.toList ++ " \x7b".toList] := by
  obtain ⟨first, rest, hcons, hfirst⟩ := exists_cons_of_isEntityName hname
  have hline : '\n' ∉ name.toList ++ " \x7b".toList := by
    rw [List.mem_append, not_or]
    exact ⟨lineFeed_notMem_entityName hname, by decide⟩
  have htext : ("    " ++ name ++ " \x7b\n").toList =
      "    ".toList ++ (name.toList ++ " \x7b".toList) ++ ['\n'] := by
    simp only [String.toList_append, List.append_assoc]
    rfl
  have hhead : (name.toList ++ " \x7b".toList).head? = some first := by
    rw [hcons]
    rfl
  have hlast : (name.toList ++ " \x7b".toList).getLast? = some '\x7b' := by simp
  rw [htext]
  exact says_indentedLine hhead hfirst hlast (by decide) hline

section NameLine

variable {name : String} (hname : isEntityName name.toList = true)

include hname

/-- The line that opens a block is no relationship: it has two words. -/
theorem readRelationship?_nameLine :
    readRelationship? (name.toList ++ " \x7b".toList) = none := by
  have hcolon : ':' ∉ name.toList ++ " \x7b".toList := by
    rw [List.mem_append, not_or]
    exact ⟨notMem_of_all (all_isEntityChar hname) (by decide), by decide⟩
  have hwords : Text.words (name.toList ++ " \x7b".toList) = [name.toList, ['\x7b']] :=
    Text.words_word_append (ne_nil_of_isEntityName hname) (isBlank_of_mem_entityName hname)
      (List.cons_ne_nil ' ' []) (by decide) ['\x7b']
  rw [readRelationship?, Text.splitAtFirst_eq_none hcolon]
  simp only [Option.getD_none, hwords]

theorem readBlockStart?_nameLine :
    readBlockStart? (name.toList ++ " \x7b".toList) = some (name, []) := by
  have hbrace : '\x7b' ∉ name.toList ++ [' '] := by
    rw [List.mem_append, not_or]
    exact ⟨notMem_of_all (all_isEntityChar hname) (by decide), by decide⟩
  have hblank := isBlank_of_mem_entityName hname
  have htrim : Text.trim (name.toList ++ [' ']) = name.toList := by
    rw [Text.trim_concat (by decide)]
    exact Text.trim_eq_self (fun c hc => hblank c (List.mem_of_mem_head? hc))
      fun c hc => hblank c (List.mem_of_getLast? hc)
  rw [readBlockStart?, show name.toList ++ " \x7b".toList = name.toList ++ [' '] ++ '\x7b' :: []
    by simp, Text.splitAtFirst_append hbrace]
  simp only [htrim, hname, if_true, String.ofList_toList]

end NameLine

theorem says_blockEnd : Says "    \x7d\n".toList ["\x7d".toList] := by
  have hsaid : Says ("    ".toList ++ "\x7d".toList ++ ['\n']) [Text.trim "\x7d".toList] :=
    says_indented (by decide) (by decide)
  exact hsaid

/-- The table without the columns that only link it. -/
def listedTable (table : Table) : Table :=
  { table with columns := table.columns.filter fun column => !column.isVirtual }

theorem listedTable_eq_self {table : Table}
    (hlisted : ∀ column ∈ table.columns, column.isVirtual = false) : listedTable table = table := by
  have hall : (table.columns.filter fun column => !column.isVirtual) = table.columns := by
    rw [List.filter_eq_self]
    intro column hmem
    rw [hlisted column hmem, Bool.not_false]
  rw [listedTable, hall]

/-- The listed columns of a table under the name that its block opens with. -/
def fittedTable (table : Table) : Table :=
  { listedTable table with name := entityName table.name }

theorem says_blockText (table : Table) :
    Says (blockText table).toList (blockLines (fittedTable table)) := by
  have hcolumns (typeWidth nameWidth : Nat) :
      Says ((listedTable table).columns.flatMap fun column =>
          (attributeText typeWidth nameWidth column).toList)
        ((listedTable table).columns.map (attributeLine typeWidth nameWidth)) := by
    rw [List.map_eq_flatMap]
    exact Says.flatMap fun column _ => says_attributeText typeWidth nameWidth column
  have hname := says_nameLine (isEntityName_entityName table.name)
  rw [blockText, blockLines]
  rw [String.toList_append, String.toList_append, String.toList_join, List.flatMap_map]
  exact (hname.append (hcolumns _ _)).append says_blockEnd

/-- All lines of the block of a drawable table count. -/
theorem IsDrawableTable.isIgnored_blockLines {table : Table} (htable : IsDrawableTable table) :
    ∀ line ∈ blockLines table, isIgnored line = false := by
  rw [blockLines, List.cons_append, List.forall_mem_cons, List.forall_mem_append]
  refine ⟨isIgnored_of_isEntityName (isEntityName_of_entityName htable.name) _, ?_,
    List.forall_mem_singleton.2 rfl⟩
  exact List.forall_mem_map.2 fun column hmem =>
    (htable.columns column hmem).isIgnored_attributeLine _ _

end Crowfoot.Mermaid
