import Crowfoot.Sql.Token
import Crowfoot.Text.Blank
import Crowfoot.Text.Numeral

/-!
# Reading SQL tokens

A text is a sequence of tokens with gaps of blanks and comments between them. Every text has a
reading: literals, quoted names and comments that are not closed run to the end of the text, and a
character that starts nothing else is a token of its own. `Lexeme.ofText` keeps the gaps, so that
the text can be put together again from its lexemes.
-/

namespace Crowfoot.Sql

/-- Where in a gap a character stands. -/
inductive GapPlace where
  /-- Outside of comments. -/
  | between
  /-- In a comment that ends with the line. -/
  | lineComment
  /-- In a comment that ends with `*/`. -/
  | blockComment
  deriving DecidableEq, Repr

/-- A text cut in two. -/
structure Cut where
  front : List Char
  rest : List Char
  deriving DecidableEq, Repr

/-- Moves a character to the front part. -/
def Cut.keep (c : Char) (cut : Cut) : Cut :=
  { cut with front := c :: cut.front }

/-- Cuts the blanks and comments off the front of a text. -/
def cutGap : GapPlace → List Char → Cut
  | _, [] => ⟨[], []⟩
  | .between, '-' :: '-' :: rest => ((cutGap .lineComment rest).keep '-').keep '-'
  | .between, '#' :: rest => (cutGap .lineComment rest).keep '#'
  | .between, '/' :: '*' :: rest => ((cutGap .blockComment rest).keep '*').keep '/'
  | .between, c :: rest =>
    if Text.isBlank c then (cutGap .between rest).keep c else ⟨[], c :: rest⟩
  | .lineComment, c :: rest =>
    (cutGap (if c = '\n' then .between else .lineComment) rest).keep c
  | .blockComment, '*' :: '/' :: rest => ((cutGap .between rest).keep '/').keep '*'
  | .blockComment, c :: rest => (cutGap .blockComment rest).keep c

/-- Letters and numerals, the underscore and the dollar sign go on with a word. -/
def isWordChar (c : Char) : Bool :=
  Text.isAlphanumeric c || c == '_' || c == '$'

/-- A word starts with a letter or the underscore. -/
def isWordStart (c : Char) : Bool :=
  Text.isLetter c || c == '_'

/-- A quoted text: what it says, and the source cut behind its closing quote. -/
structure Quotation where
  content : List Char
  source : Cut
  deriving DecidableEq, Repr

/-- A character that stands for itself in front of a quoted text. -/
def Quotation.keep (c : Char) (quotation : Quotation) : Quotation :=
  ⟨c :: quotation.content, quotation.source.keep c⟩

/-- A character with an escape mark before it in front of a quoted text. -/
def Quotation.escape (mark c : Char) (quotation : Quotation) : Quotation :=
  ⟨c :: quotation.content, (quotation.source.keep c).keep mark⟩

/-- Reads a quoted text after its opening quote. A doubled quote stands for itself, except the
bracket; in a literal, a backslash does so for the character after it. -/
def readQuotation (close : Char) : List Char → Quotation
  | [] => ⟨[], ⟨[], []⟩⟩
  | [c] => ⟨if c = close ∨ c = '\\' ∧ close = '\x27' then [] else [c], ⟨[c], []⟩⟩
  | c :: next :: rest =>
    if c = close then
      if next = close ∧ close ≠ ']' then
        (readQuotation close rest).escape c next
      else
        ⟨[], ⟨[c], next :: rest⟩⟩
    else if c = '\\' ∧ close = '\x27' then
      (readQuotation close rest).escape c next
    else
      (readQuotation close (next :: rest)).keep c

/-- Cuts a numeral off the front: digits, with a point if a digit follows it. -/
def cutNumeral (seenPoint : Bool) : List Char → Cut
  | [] => ⟨[], []⟩
  | c :: rest =>
    if c.isDigit then
      (cutNumeral seenPoint rest).keep c
    else if c = '.' ∧ seenPoint = false ∧ rest.head?.any Char.isDigit then
      (cutNumeral true rest).keep c
    else
      ⟨[], c :: rest⟩

/-- Cuts a word off the front. -/
def cutWord (text : List Char) : Cut :=
  ⟨text.takeWhile isWordChar, text.dropWhile isWordChar⟩

/-- The token of a bare word. -/
def Token.ofWord (word : List Char) : Token :=
  match Keyword.ofWord? word with
  | some found => .keyword found
  | none => .word word

/-- A token read off the front of a text. -/
structure Reading where
  token : Token
  source : Cut
  deriving DecidableEq, Repr

/-- Reads the token that starts with a character. -/
def readToken (c : Char) (rest : List Char) : Reading :=
  let quotation (close : Char) (token : List Char → Token) : Reading :=
    let quoted := readQuotation close rest
    ⟨token quoted.content, quoted.source.keep c⟩
  match c with
  | '(' => ⟨.leftParen, ⟨[c], rest⟩⟩
  | ')' => ⟨.rightParen, ⟨[c], rest⟩⟩
  | ',' => ⟨.comma, ⟨[c], rest⟩⟩
  | ';' => ⟨.semicolon, ⟨[c], rest⟩⟩
  | '.' => ⟨.dot, ⟨[c], rest⟩⟩
  | '*' => ⟨.star, ⟨[c], rest⟩⟩
  | '\x22' => quotation '\x22' .quoted
  | '\x60' => quotation '\x60' .quoted
  | '[' => quotation ']' .quoted
  | '\x27' => quotation '\x27' .string
  | _ =>
    if c.isDigit then
      let numeral := (cutNumeral false rest).keep c
      ⟨.number numeral.front, numeral⟩
    else if isWordStart c then
      let word := (cutWord rest).keep c
      ⟨.ofWord word.front, word⟩
    else
      ⟨.symbol c, ⟨[c], rest⟩⟩

@[simp] theorem Cut.keep_front (c : Char) (cut : Cut) : (cut.keep c).front = c :: cut.front := rfl

@[simp] theorem Cut.keep_rest (c : Char) (cut : Cut) : (cut.keep c).rest = cut.rest := rfl

/-- A gap and what follows it make up the text. -/
theorem cutGap_append (place : GapPlace) (text : List Char) :
    (cutGap place text).front ++ (cutGap place text).rest = text := by
  fun_induction cutGap place text <;> simp_all

/-- A quotation and what follows it make up the text. -/
theorem readQuotation_append (close : Char) (text : List Char) :
    (readQuotation close text).source.front ++ (readQuotation close text).source.rest = text := by
  fun_induction readQuotation close text <;> simp_all [Quotation.keep, Quotation.escape]

theorem cutNumeral_append (seenPoint : Bool) (text : List Char) :
    (cutNumeral seenPoint text).front ++ (cutNumeral seenPoint text).rest = text := by
  fun_induction cutNumeral seenPoint text <;> simp_all

theorem cutWord_append (text : List Char) : (cutWord text).front ++ (cutWord text).rest = text :=
  List.takeWhile_append_dropWhile

/-- A token and what follows it make up the text. -/
theorem readToken_append (c : Char) (rest : List Char) :
    (readToken c rest).source.front ++ (readToken c rest).source.rest = c :: rest := by
  unfold readToken
  split <;> (try split) <;> (try split) <;>
    simp [readQuotation_append, cutNumeral_append, cutWord_append]

/-- The source of a token starts with its first character. -/
theorem readToken_front (c : Char) (rest : List Char) :
    ∃ tail, (readToken c rest).source.front = c :: tail := by
  unfold readToken
  split <;> (try split) <;> (try split) <;> simp

/-- What follows a token is shorter than the text. -/
theorem readToken_rest_length (c : Char) (rest : List Char) :
    (readToken c rest).source.rest.length ≤ rest.length := by
  have happend := congrArg List.length (readToken_append c rest)
  obtain ⟨tail, hfront⟩ := readToken_front c rest
  rw [hfront] at happend
  simp at happend
  omega

theorem cutGap_rest_length (place : GapPlace) (text : List Char) :
    (cutGap place text).rest.length ≤ text.length := by
  have happend := congrArg List.length (cutGap_append place text)
  simp at happend
  omega

/-- The lexemes of a text that starts at a byte offset; the last one is the end of the text. -/
def Lexeme.ofTextAt (start : Nat) (text : List Char) : List Lexeme :=
  let gap := cutGap .between text
  let here := start + Text.byteLength gap.front
  match _hrest : gap.rest with
  | [] => [⟨gap.front, .eof, [], here⟩]
  | c :: rest =>
    let reading := readToken c rest
    ⟨gap.front, reading.token, reading.source.front, here⟩ ::
      ofTextAt (here + Text.byteLength reading.source.front) reading.source.rest
termination_by text.length
decreasing_by
  have hgap := cutGap_rest_length .between text
  have hread := readToken_rest_length c rest
  simp only [_hrest, List.length_cons, gap] at hgap
  omega

/-- The lexemes of a text. -/
def Lexeme.ofText (text : List Char) : List Lexeme :=
  ofTextAt 0 text

/-- Nothing of the text is lost. -/
theorem Lexeme.flatMap_ofTextAt (start : Nat) (text : List Char) :
    ((ofTextAt start text).flatMap fun lexeme => lexeme.gap ++ lexeme.text) = text := by
  fun_induction Lexeme.ofTextAt start text with
  | case1 start text gap here hrest =>
    have happend := cutGap_append .between text
    simp_all [gap]
  | case2 start text gap here c rest hrest reading ih =>
    have happend := cutGap_append .between text
    have hread := readToken_append c rest
    simp only [List.flatMap_cons, ih, List.append_assoc, reading, hread, gap]
    simp only [gap] at hrest
    rw [← hrest, happend]

end Crowfoot.Sql
