import Crowfoot.Proofs.Text.Classes
import Crowfoot.Sql.Quote

/-!
# Spellings

Where a token stands in a text and what blanks are before it does not matter to
the readers.  The spelling of a lexeme is what is left: its token and its source
text.  A word, a numeral, a quoted name or a mark that is written in front of a
text which does not go on with it reads as that one token, and the text after it
reads as before.
-/

namespace Crowfoot.Sql

/-- A token with its source text. -/
structure Spelling where
  token : Token
  text : List Char
  deriving DecidableEq

def Lexeme.spelling (lexeme : Lexeme) : Spelling :=
  ⟨lexeme.token, lexeme.text⟩

/-- The tokens of a text with their source texts, the end of the text included. -/
def spellings (text : List Char) : List Spelling :=
  (Lexeme.ofText text).map Lexeme.spelling

/-- A text that is all gap has no tokens. -/
theorem ofTextAt_of_gap (start : Nat) {text : List Char}
    (hgap : (cutGap .between text).rest = []) :
    Lexeme.ofTextAt start text =
      [⟨(cutGap .between text).front, .eof, [],
        start + Text.byteLength (cutGap .between text).front⟩] := by
  rw [Lexeme.ofTextAt]
  split
  · rfl
  · simp_all

/-- The first token of a text is read behind its first gap. -/
theorem ofTextAt_of_token (start : Nat) {text rest : List Char} {c : Char}
    (hgap : (cutGap .between text).rest = c :: rest) :
    Lexeme.ofTextAt start text =
      ⟨(cutGap .between text).front, (readToken c rest).token, (readToken c rest).source.front,
          start + Text.byteLength (cutGap .between text).front⟩ ::
        Lexeme.ofTextAt (start + Text.byteLength (cutGap .between text).front +
          Text.byteLength (readToken c rest).source.front) (readToken c rest).source.rest := by
  rw [Lexeme.ofTextAt]
  split
  · simp_all
  · rename_i first after hafter
    obtain ⟨rfl, rfl⟩ := List.cons.inj (hafter.symm.trans hgap)
    rfl

/-- A lexeme that stands some bytes further on. -/
def Lexeme.shift (bytes : Nat) (lexeme : Lexeme) : Lexeme :=
  { lexeme with start := bytes + lexeme.start }

/-- Where a text starts matters to the offsets of its lexemes only. -/
theorem ofTextAt_add (bytes start : Nat) (text : List Char) :
    Lexeme.ofTextAt (bytes + start) text =
      (Lexeme.ofTextAt start text).map (Lexeme.shift bytes) := by
  fun_induction Lexeme.ofTextAt start text with
  | case1 start text gap here hrest =>
    rw [ofTextAt_of_gap _ hrest, Nat.add_assoc]
    rfl
  | case2 start text gap here c rest hrest reading ih =>
    rw [ofTextAt_of_token _ hrest, Nat.add_assoc, Nat.add_assoc, List.map_cons, ← ih]
    rfl

/-- The tokens do not depend on the offset at which a text starts. -/
theorem map_spelling_ofTextAt (start : Nat) (text : List Char) :
    (Lexeme.ofTextAt start text).map Lexeme.spelling = spellings text := by
  rw [← Nat.add_zero start, ofTextAt_add, List.map_map]
  rfl

theorem spellings_of_gap {text : List Char} (hgap : (cutGap .between text).rest = []) :
    spellings text = [⟨.eof, []⟩] := by
  rw [spellings, Lexeme.ofText, ofTextAt_of_gap 0 hgap]
  rfl

theorem spellings_of_token {text rest : List Char} {c : Char}
    (hgap : (cutGap .between text).rest = c :: rest) :
    spellings text =
      ⟨(readToken c rest).token, (readToken c rest).source.front⟩ ::
        spellings (readToken c rest).source.rest := by
  rw [spellings, Lexeme.ofText, ofTextAt_of_token 0 hgap, List.map_cons, map_spelling_ofTextAt]
  rfl

@[simp]
theorem spellings_nil : spellings [] = [⟨.eof, []⟩] :=
  spellings_of_gap rfl

/-! ## Gaps -/

/-- A gap ends at the character. -/
def EndsGap (c : Char) : Prop :=
  c ≠ '-' ∧ c ≠ '#' ∧ c ≠ '/' ∧ Text.isBlank c = false

instance (c : Char) : Decidable (EndsGap c) :=
  inferInstanceAs (Decidable (_ ∧ _ ∧ _ ∧ _))

theorem cutGap_of_blank {c : Char} (hblank : Text.isBlank c = true) (rest : List Char) :
    cutGap .between (c :: rest) = (cutGap .between rest).keep c := by
  have hdash : c ≠ '-' := by rintro rfl; simp [Text.isBlank] at hblank
  have hhash : c ≠ '#' := by rintro rfl; simp [Text.isBlank] at hblank
  have hslash : c ≠ '/' := by rintro rfl; simp [Text.isBlank] at hblank
  rw [cutGap.eq_def]
  split <;> simp_all

theorem cutGap_of_endsGap {c : Char} (hends : EndsGap c) (rest : List Char) :
    cutGap .between (c :: rest) = ⟨[], c :: rest⟩ := by
  obtain ⟨hdash, hhash, hslash, hblank⟩ := hends
  rw [cutGap.eq_def]
  split <;> simp_all

theorem spellings_blank {c : Char} (hblank : Text.isBlank c = true) (rest : List Char) :
    spellings (c :: rest) = spellings rest := by
  have hgap : (cutGap .between (c :: rest)).rest = (cutGap .between rest).rest := by
    rw [cutGap_of_blank hblank, Cut.keep_rest]
  cases hrest : (cutGap .between rest).rest with
  | nil => rw [spellings_of_gap hrest, spellings_of_gap (hgap.trans hrest)]
  | cons first after => rw [spellings_of_token hrest, spellings_of_token (hgap.trans hrest)]

@[simp]
theorem spellings_lineFeed (rest : List Char) : spellings ('\n' :: rest) = spellings rest :=
  spellings_blank (by decide) rest

theorem spellings_blanks {blanks : List Char} (hblanks : ∀ c ∈ blanks, Text.isBlank c = true)
    (rest : List Char) : spellings (blanks ++ rest) = spellings rest := by
  induction blanks with
  | nil => rfl
  | cons c tail ih =>
    obtain ⟨hc, htail⟩ := List.forall_mem_cons.1 hblanks
    rw [List.cons_append, spellings_blank hc, ih htail]

theorem spellings_cons {c : Char} (hends : EndsGap c) (rest : List Char) :
    spellings (c :: rest) =
      ⟨(readToken c rest).token, (readToken c rest).source.front⟩ ::
        spellings (readToken c rest).source.rest :=
  spellings_of_token (by rw [cutGap_of_endsGap hends])

/-! ## Marks -/

def openMark : Spelling := ⟨.leftParen, ['(']⟩
def closeMark : Spelling := ⟨.rightParen, [')']⟩
def commaMark : Spelling := ⟨.comma, [',']⟩
def endMark : Spelling := ⟨.semicolon, [';']⟩

@[simp]
theorem spellings_leftParen (rest : List Char) :
    spellings ('(' :: rest) = openMark :: spellings rest :=
  spellings_cons (by decide) rest

@[simp]
theorem spellings_rightParen (rest : List Char) :
    spellings (')' :: rest) = closeMark :: spellings rest :=
  spellings_cons (by decide) rest

@[simp]
theorem spellings_comma (rest : List Char) :
    spellings (',' :: rest) = commaMark :: spellings rest :=
  spellings_cons (by decide) rest

@[simp]
theorem spellings_semicolon (rest : List Char) :
    spellings (';' :: rest) = endMark :: spellings rest :=
  spellings_cons (by decide) rest

/-- No word or quoted name goes on into the text. -/
def EndsName (text : List Char) : Prop :=
  ∀ c ∈ text.head?, isWordChar c = false ∧ c ≠ '"'

/-- No word, numeral or quoted name goes on into the text. -/
def Delimits (text : List Char) : Prop :=
  ∀ c ∈ text.head?, isWordChar c = false ∧ c ≠ '"' ∧ c ≠ '.'

theorem Delimits.endsName {text : List Char} (hdelimits : Delimits text) : EndsName text :=
  fun c hc => ⟨(hdelimits c hc).1, (hdelimits c hc).2.1⟩

theorem delimits_nil : Delimits [] := by
  simp [Delimits]

theorem delimits_cons {c : Char} (hc : isWordChar c = false ∧ c ≠ '"' ∧ c ≠ '.')
    (rest : List Char) : Delimits (c :: rest) := by
  simpa [Delimits] using hc

theorem Delimits.append {left right : List Char} (hleft : Delimits left)
    (hright : Delimits right) : Delimits (left ++ right) := by
  cases left with
  | nil => exact hright
  | cons c tail => exact delimits_cons (hleft c rfl) (tail ++ right)

/-- In front of a text that delimits it, the text reads as these tokens. -/
def Spells (text : List Char) (written : List Spelling) : Prop :=
  ∀ rest, Delimits rest → spellings (text ++ rest) = written ++ spellings rest

theorem spells_nil : Spells [] [] :=
  fun _ _ => rfl

theorem Spells.append {left right : List Char} {first second : List Spelling}
    (hleft : Spells left first) (hright : Spells right second) (hdelimits : Delimits right) :
    Spells (left ++ right) (first ++ second) := by
  intro rest hrest
  rw [List.append_assoc, hleft _ (hdelimits.append hrest), hright rest hrest, List.append_assoc]

theorem Spells.blanks {blanks text : List Char} {written : List Spelling}
    (hblanks : ∀ c ∈ blanks, Text.isBlank c = true) (htext : Spells text written) :
    Spells (blanks ++ text) written := by
  intro rest hrest
  rw [List.append_assoc, spellings_blanks hblanks, htext rest hrest]

theorem Spells.space {text : List Char} {written : List Spelling} (htext : Spells text written) :
    Spells (' ' :: text) written := by
  have hblank : ∀ c ∈ [' '], Text.isBlank c = true := List.forall_mem_singleton.2 (by decide)
  exact htext.blanks hblank

theorem Spells.lineFeed {text : List Char} {written : List Spelling} (htext : Spells text written) :
    Spells ('\n' :: text) written := by
  have hblank : ∀ c ∈ ['\n'], Text.isBlank c = true := List.forall_mem_singleton.2 (by decide)
  exact htext.blanks hblank

theorem Spells.group {text : List Char} {written : List Spelling} (htext : Spells text written) :
    Spells ('(' :: text ++ [')']) (openMark :: written ++ [closeMark]) := by
  intro rest _
  have hclose := htext (')' :: rest) (delimits_cons (by decide) rest)
  simp [hclose]

theorem Spells.comma {blanks text : List Char} {written : List Spelling}
    (hblanks : ∀ c ∈ blanks, Text.isBlank c = true) (htext : Spells text written) :
    Spells (',' :: blanks ++ text) (commaMark :: written) := by
  intro rest hrest
  rw [List.append_assoc, List.cons_append, spellings_comma, spellings_blanks hblanks,
    htext rest hrest, List.cons_append]

/-- A list is written with commas, perhaps with blanks behind them. -/
theorem Spells.intercalate {α : Type} {blanks : List Char}
    (hblanks : ∀ c ∈ blanks, Text.isBlank c = true) {text : α → List Char}
    {written : α → List Spelling} {items : List α}
    (hitems : ∀ item ∈ items, Spells (text item) (written item)) :
    Spells ((',' :: blanks).intercalate (items.map text))
      ([commaMark].intercalate (items.map written)) := by
  induction items with
  | nil => exact spells_nil
  | cons first more ih =>
    obtain ⟨hfirst, hmore⟩ := List.forall_mem_cons.1 hitems
    cases more with
    | nil => simpa using hfirst
    | cons second others =>
      have hcomma := (ih hmore).comma hblanks
      have hall := hfirst.append hcomma (delimits_cons (by decide) _)
      simpa [List.intercalate_cons_cons] using hall

/-! ## Words and numerals -/

theorem endsGap_of_isWordStart {c : Char} (hstart : isWordStart c = true) : EndsGap c := by
  refine ⟨?_, ?_, ?_, ?_⟩
  · rintro rfl; simp [isWordStart, Text.isLetter] at hstart
  · rintro rfl; simp [isWordStart, Text.isLetter] at hstart
  · rintro rfl; simp [isWordStart, Text.isLetter] at hstart
  · rcases Bool.or_eq_true_iff.1 hstart with hletter | hline
    · exact Text.isBlank_of_isAlphanumeric (Text.isAlphanumeric_of_isLetter hletter)
    · rw [beq_iff_eq.1 hline]
      decide

theorem isWordChar_of_isWordStart {c : Char} (hstart : isWordStart c = true) :
    isWordChar c = true := by
  rcases Bool.or_eq_true_iff.1 hstart with hletter | hline
  · simp [isWordChar, Text.isAlphanumeric_of_isLetter hletter]
  · simp [isWordChar, hline]

theorem isWordStart_of_isDigit {c : Char} (hdigit : c.isDigit = true) :
    isWordStart c = false := by
  have hne : c ≠ '_' := by rintro rfl; simp at hdigit
  simp [isWordStart, Text.isLetter_of_isDigit hdigit, hne]

theorem isWordChar_of_isDigit {c : Char} (hdigit : c.isDigit = true) : isWordChar c = true := by
  simp [isWordChar, Text.isAlphanumeric_of_isDigit hdigit]

theorem readToken_word {c : Char} (hstart : isWordStart c = true) (rest : List Char) :
    readToken c rest =
      ⟨.ofWord ((cutWord rest).keep c).front, (cutWord rest).keep c⟩ := by
  have hdigit : c.isDigit = false := by
    rw [← Bool.not_eq_true]
    intro hdigit
    rw [isWordStart_of_isDigit hdigit] at hstart
    exact Bool.noConfusion hstart
  unfold readToken
  split <;> simp_all [isWordStart, Text.isLetter]

theorem readToken_digit {c : Char} (hdigit : c.isDigit = true) (rest : List Char) :
    readToken c rest =
      ⟨.number ((cutNumeral false rest).keep c).front, (cutNumeral false rest).keep c⟩ := by
  unfold readToken
  split <;> simp_all

theorem cutWord_append_of_endsName {word rest : List Char}
    (hword : ∀ c ∈ word, isWordChar c = true) (hrest : EndsName rest) :
    cutWord (word ++ rest) = ⟨word, rest⟩ := by
  have hstop : rest.takeWhile isWordChar = [] ∧ rest.dropWhile isWordChar = rest := by
    cases rest with
    | nil => exact ⟨rfl, rfl⟩
    | cons c after =>
      have hc := (hrest c rfl).1
      simp [hc]
  rw [cutWord, List.takeWhile_append_of_pos hword, List.dropWhile_append_of_pos hword, hstop.1,
    hstop.2, List.append_nil]

theorem isWordChar_of_isPlainWord {word : List Char} (hplain : isPlainWord word = true) :
    ∀ c ∈ word, isWordChar c = true := by
  cases word with
  | nil => simp
  | cons c tail =>
    obtain ⟨hstart, htail⟩ := Bool.and_eq_true_iff.1 hplain
    exact List.forall_mem_cons.2 ⟨isWordChar_of_isWordStart hstart, List.all_eq_true.1 htail⟩

/-- The spelling of a bare word, which may be a keyword. -/
def wordSpelling (word : List Char) : Spelling :=
  ⟨.ofWord word, word⟩

theorem spells_word {word : List Char} (hword : isPlainWord word = true) :
    Spells word [wordSpelling word] := by
  intro rest hrest
  cases word with
  | nil => simp [isPlainWord] at hword
  | cons c tail =>
    obtain ⟨hstart, htail⟩ := Bool.and_eq_true_iff.1 hword
    rw [List.all_eq_true] at htail
    rw [List.cons_append, spellings_cons (endsGap_of_isWordStart hstart), readToken_word hstart,
      cutWord_append_of_endsName htail hrest.endsName]
    rfl

def keywordSpelling (keyword : Keyword) : Spelling :=
  ⟨.keyword keyword, keyword.spelling.toList⟩

theorem spells_keyword (keyword : Keyword) :
    Spells keyword.spelling.toList [keywordSpelling keyword] := by
  have hplain : isPlainWord keyword.spelling.toList = true := by
    cases keyword <;> decide +kernel
  have htoken : Token.ofWord keyword.spelling.toList = .keyword keyword := by
    cases keyword <;> decide +kernel
  have hword := spells_word hplain
  rw [wordSpelling, htoken] at hword
  exact hword

/-- Digits, perhaps with a point and more digits after them. -/
inductive IsNumeral : List Char → Prop
  | whole {digits : List Char} (hsome : digits ≠ []) (hdigits : ∀ c ∈ digits, c.isDigit = true) :
      IsNumeral digits
  | fraction {digits places : List Char} (hsome : digits ≠ [])
      (hdigits : ∀ c ∈ digits, c.isDigit = true) (hplace : places ≠ [])
      (hplaces : ∀ c ∈ places, c.isDigit = true) : IsNumeral (digits ++ '.' :: places)

theorem cutNumeral_digits {digits : List Char} (hdigits : ∀ c ∈ digits, c.isDigit = true)
    (seenPoint : Bool) (rest : List Char) :
    cutNumeral seenPoint (digits ++ rest) =
      ⟨digits ++ (cutNumeral seenPoint rest).front, (cutNumeral seenPoint rest).rest⟩ := by
  induction digits with
  | nil => rfl
  | cons c tail ih =>
    obtain ⟨hc, htail⟩ := List.forall_mem_cons.1 hdigits
    rw [List.cons_append, cutNumeral, if_pos hc, ih htail]
    rfl

theorem cutNumeral_of_delimits {rest : List Char} (hrest : Delimits rest) (seenPoint : Bool) :
    cutNumeral seenPoint rest = ⟨[], rest⟩ := by
  cases rest with
  | nil => rfl
  | cons c after =>
    obtain ⟨hword, -, hpoint⟩ := hrest c rfl
    have hdigit : ¬ c.isDigit = true := by
      intro hdigit
      rw [isWordChar_of_isDigit hdigit] at hword
      exact Bool.noConfusion hword
    rw [cutNumeral, if_neg hdigit, if_neg (by simp [hpoint])]

/-- A numeral is cut off whole where no digit or point follows. -/
theorem cutNumeral_append_of_delimits {numeral rest : List Char} (hnumeral : IsNumeral numeral)
    (hrest : Delimits rest) : cutNumeral false (numeral ++ rest) = ⟨numeral, rest⟩ := by
  cases hnumeral with
  | whole hsome hdigits =>
    rw [cutNumeral_digits hdigits, cutNumeral_of_delimits hrest, List.append_nil]
  | @fraction digits places hsome hdigits hplace hplaces =>
    have hpoint : cutNumeral false ('.' :: (places ++ rest)) =
        (cutNumeral true (places ++ rest)).keep '.' := by
      obtain ⟨first, more, rfl⟩ := List.exists_cons_of_ne_nil hplace
      have hfirst := hplaces first List.mem_cons_self
      rw [cutNumeral, if_neg (by decide), if_pos (by simp [hfirst])]
    rw [List.append_assoc, List.cons_append, cutNumeral_digits hdigits, hpoint,
      cutNumeral_digits hplaces, cutNumeral_of_delimits hrest]
    simp

def numeralSpelling (numeral : List Char) : Spelling :=
  ⟨.number numeral, numeral⟩

theorem IsNumeral.head_isDigit {numeral : List Char} (hnumeral : IsNumeral numeral) :
    ∃ c tail, numeral = c :: tail ∧ c.isDigit = true := by
  cases hnumeral with
  | whole hsome hdigits =>
    obtain ⟨c, tail, rfl⟩ := List.exists_cons_of_ne_nil hsome
    exact ⟨c, tail, rfl, hdigits c List.mem_cons_self⟩
  | fraction hsome hdigits =>
    obtain ⟨c, tail, rfl⟩ := List.exists_cons_of_ne_nil hsome
    exact ⟨c, _, rfl, hdigits c List.mem_cons_self⟩

theorem spells_numeral {numeral : List Char} (hnumeral : IsNumeral numeral) :
    Spells numeral [numeralSpelling numeral] := by
  intro rest hrest
  have hcut := cutNumeral_append_of_delimits hnumeral hrest
  obtain ⟨c, tail, rfl, hdigit⟩ := hnumeral.head_isDigit
  have hends : EndsGap c := by
    refine ⟨?_, ?_, ?_, Text.isBlank_of_isAlphanumeric (Text.isAlphanumeric_of_isDigit hdigit)⟩
    all_goals rintro rfl; simp at hdigit
  -- `readToken` cuts the numeral behind its first digit, which `cutNumeral` would cut too.
  rw [List.cons_append, cutNumeral, if_pos hdigit] at hcut
  rw [List.cons_append, spellings_cons hends, readToken_digit hdigit, hcut]
  rfl

/-! ## Names -/

theorem doubleQuotes_quote (text : List Char) :
    doubleQuotes ('"' :: text) = '"' :: '"' :: doubleQuotes text := rfl

theorem doubleQuotes_cons {c : Char} (hquote : c ≠ '"') (text : List Char) :
    doubleQuotes (c :: text) = c :: doubleQuotes text := by
  simp [doubleQuotes, hquote]

theorem readQuotation_doubleQuotes (name : List Char) {rest : List Char}
    (hrest : EndsName rest) :
    readQuotation '"' (doubleQuotes name ++ '"' :: rest) =
      ⟨name, ⟨doubleQuotes name ++ ['"'], rest⟩⟩ := by
  induction name with
  | nil =>
    cases rest with
    | nil => rfl
    | cons c after =>
      have hquote := (hrest c rfl).2
      simp [doubleQuotes, readQuotation, hquote]
  | cons c tail ih =>
    by_cases hquote : c = '"'
    · rw [hquote, doubleQuotes_quote]
      simp [readQuotation, ih, Quotation.escape, Cut.keep]
    · rw [doubleQuotes_cons hquote]
      have hcons : ∃ next after, doubleQuotes tail ++ '"' :: rest = next :: after :=
        List.exists_cons_of_ne_nil (by simp)
      obtain ⟨next, after, hnext⟩ := hcons
      rw [List.cons_append, hnext]
      rw [hnext] at ih
      simp [readQuotation, hquote, ih, Quotation.keep, Cut.keep]

/-- The spelling of a name as it is written: bare where that reads as a name. -/
def nameSpelling (name : String) : Spelling :=
  ⟨if isPlainWord name.toList && (Keyword.ofWord? name.toList).isNone then .word name.toList
    else .quoted name.toList, quoteChars name.toList⟩

/-- In front of a text that ends it, a written name is read as one token. -/
theorem exists_readToken_quoteName (name : String) {rest : List Char} (hrest : EndsName rest) :
    ∃ c tail, (quoteName name).toList = c :: tail ∧ EndsGap c ∧
      readToken c (tail ++ rest) =
        ⟨(nameSpelling name).token, (quoteName name).toList, rest⟩ := by
  rw [quoteName, String.toList_ofList, nameSpelling, quoteChars]
  split
  · rename_i hplain
    obtain ⟨hword, hkeyword⟩ := Bool.and_eq_true_iff.1 hplain
    cases hname : name.toList with
    | nil => simp [hname, isPlainWord] at hword
    | cons c tail =>
      rw [hname] at hword hkeyword
      obtain ⟨hstart, htail⟩ := Bool.and_eq_true_iff.1 hword
      refine ⟨c, tail, rfl, endsGap_of_isWordStart hstart, ?_⟩
      rw [readToken_word hstart, cutWord_append_of_endsName (List.all_eq_true.1 htail) hrest]
      simp only [Cut.keep, Token.ofWord, Option.isNone_iff_eq_none.1 hkeyword]
  · refine ⟨'"', doubleQuotes name.toList ++ ['"'], rfl, by decide, ?_⟩
    rw [List.append_assoc, List.singleton_append]
    simp only [readToken, readQuotation_doubleQuotes name.toList hrest]
    rfl

theorem spells_quoteName (name : String) :
    Spells (quoteName name).toList [nameSpelling name] := by
  intro rest hrest
  obtain ⟨c, tail, hname, hends, hread⟩ := exists_readToken_quoteName name hrest.endsName
  rw [hname, List.cons_append, spellings_cons hends, hread, quoteName, String.toList_ofList]
  rfl

/-- Writing a name is undone by reading its token, whatever text ends it: the token says
the name and takes up what was written, and the tokens of the text follow. -/
theorem ofText_quoteName_append (name : String) {rest : List Char}
    (hrest : ∀ c ∈ rest.head?,
      c ≠ '"' ∧ c ≠ '_' ∧ c ≠ '$' ∧ Text.isAlphanumeric c = false) :
    ∃ token, (token = .word name.toList ∨ token = .quoted name.toList) ∧
      Lexeme.ofText ((quoteName name).toList ++ rest) =
        ⟨[], token, (quoteName name).toList, 0⟩ ::
          (Lexeme.ofText rest).map
            (Lexeme.shift (Text.byteLength (quoteName name).toList)) := by
  have hends : EndsName rest := by
    intro c hc
    obtain ⟨hquote, hline, hdollar, hletter⟩ := hrest c hc
    exact ⟨by simp [isWordChar, hline, hdollar, hletter], hquote⟩
  obtain ⟨c, tail, hname, hstart, hread⟩ := exists_readToken_quoteName name hends
  have hgap : cutGap .between (c :: (tail ++ rest)) = ⟨[], c :: (tail ++ rest)⟩ :=
    cutGap_of_endsGap hstart _
  refine ⟨(nameSpelling name).token, ?_, ?_⟩
  · rw [nameSpelling]
    split
    · exact Or.inl rfl
    · exact Or.inr rfl
  · rw [Lexeme.ofText, Lexeme.ofText, ← ofTextAt_add, hname, List.cons_append,
      ofTextAt_of_token 0 (by rw [hgap]), hgap, hread, hname]
    simp

/-- A name that would close its quotes and go on with a statement of its own. -/
def brokenName : String :=
  "t\" (id INT); DROP TABLE u; --"

theorem ofText_quoteName_append_brokenName :
    (∀ c ∈ " (id INT)".toList.head?,
      c ≠ '"' ∧ c ≠ '_' ∧ c ≠ '$' ∧ Text.isAlphanumeric c = false) ∧
      ∃ token, (token = .word brokenName.toList ∨ token = .quoted brokenName.toList) ∧
        Lexeme.ofText ((quoteName brokenName).toList ++ " (id INT)".toList) =
          ⟨[], token, (quoteName brokenName).toList, 0⟩ ::
            (Lexeme.ofText " (id INT)".toList).map
              (Lexeme.shift (Text.byteLength (quoteName brokenName).toList)) := by
  have hrest : ∀ c ∈ " (id INT)".toList.head?,
      c ≠ '"' ∧ c ≠ '_' ∧ c ≠ '$' ∧ Text.isAlphanumeric c = false := by
    intro c hc
    rw [show " (id INT)".toList.head? = some ' ' by decide] at hc
    obtain rfl := Option.some.inj hc
    decide
  exact ⟨hrest, ofText_quoteName_append brokenName hrest⟩

end Crowfoot.Sql
