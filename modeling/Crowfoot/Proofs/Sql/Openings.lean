import Crowfoot.Proofs.Sql.Extent
import Crowfoot.Proofs.Sql.Spelling
import Mathlib.Data.List.Infix

/-!
# How statements open

A statement opens with two keywords.  Where only blanks stand between them, the
keywords stand in the text as they stand in the script that is read, whatever
separators are overwritten elsewhere, and so do the blanks.
-/

namespace Crowfoot.Sql

/-! ## Parts that separators leave alone -/

/-- A part without a mark stands on one side of it. -/
theorem infix_append_cons {α : Type} {part left right : List α} {mark : α} (hmark : mark ∉ part)
    (hpart : part <:+: left ++ mark :: right) : part <:+: left ∨ part <:+: right := by
  obtain ⟨before, after, happend⟩ := hpart
  rcases List.append_eq_append_iff.1 happend with ⟨more, hleft, -⟩ | ⟨more, hbefore, hmore⟩
  · exact Or.inl ⟨before, more, hleft.symm⟩
  rcases List.append_eq_append_iff.1 hbefore with ⟨front, hleft, hfront⟩ | ⟨back, -, hback⟩
  · cases more with
    | nil => exact Or.inl ⟨before, [], by simp [hleft, hfront]⟩
    | cons c rest =>
      obtain ⟨rfl, -⟩ := List.cons.inj hmore
      exact absurd (hfront ▸ List.mem_append_right front List.mem_cons_self) hmark
  · rw [hback] at hmore
    cases back with
    | nil =>
      cases part with
      | nil => exact Or.inr List.nil_infix
      | cons c rest =>
        obtain ⟨rfl, -⟩ := List.cons.inj hmore
        exact absurd List.mem_cons_self hmark
    | cons c rest =>
      obtain ⟨-, hright⟩ := List.cons.inj hmore
      exact Or.inr ⟨rest, after, hright.symm⟩

/-- A separator is overwritten with a semicolon and a space. -/
theorem separateBatch_eq (line : List Char) :
    separateBatch line = line ∨ ∃ front first second back,
      line = front ++ first :: second :: back ∧
        separateBatch line = front ++ ';' :: ' ' :: back := by
  by_cases hline : IsSeparator line
  · obtain ⟨first, second, back, -, -, hparts, hwritten⟩ := hline.exists_letters
    exact Or.inr ⟨_, first, second, back, hparts, hwritten⟩
  · exact Or.inl (separateBatch_of_not_isSeparator hline)

/-- What stands among overwritten lines and could not have come with a separator stands among
the lines. -/
theorem infix_of_infix_separateBatch {c : Char} {part : List Char} (hspace : c ≠ ' ')
    (hsemicolon : ';' ∉ c :: part) (front : List Char) (lines : List (List Char))
    (hpart : c :: part <:+: front ++ lines.flatMap separateBatch) :
    c :: part <:+: front ++ lines.flatten := by
  induction lines generalizing front with
  | nil => exact hpart
  | cons line rest ih =>
    rw [List.flatMap_cons] at hpart
    rw [List.flatten_cons]
    rcases separateBatch_eq line with hsame | ⟨left, first, second, right, rfl, hsame⟩
    · rw [hsame, ← List.append_assoc] at hpart
      rw [← List.append_assoc]
      exact ih (front ++ line) hpart
    · have hcut : c :: part <:+:
          (front ++ left) ++ ';' :: (' ' :: (right ++ rest.flatMap separateBatch)) := by
        simpa [hsame] using hpart
      have hright : right ++ rest.flatten <:+:
          front ++ (left ++ first :: second :: right ++ rest.flatten) :=
        ⟨front ++ left ++ [first, second], [], by simp⟩
      rcases infix_append_cons hsemicolon hcut with hbefore | hafter
      · exact hbefore.trans ⟨[], first :: second :: right ++ rest.flatten, by simp⟩
      · rcases List.infix_cons_iff.1 hafter with hspaced | hlater
        · exact absurd (List.cons_prefix_cons.1 hspaced).1 hspace
        · exact (ih right hlater).trans hright

theorem infix_of_infix_separateBatches {c : Char} {part text : List Char} (hspace : c ≠ ' ')
    (hsemicolon : ';' ∉ c :: part) (hpart : c :: part <:+: separateBatches text) :
    c :: part <:+: text := by
  have hlines := infix_of_infix_separateBatch hspace hsemicolon [] (Text.linesOf text) hpart
  rwa [List.nil_append, Text.flatten_linesOf] at hlines

/-! ## Keywords in the text -/

/-- The source text of a keyword. -/
structure SpellsKeyword (keyword : Keyword) (text : List Char) : Prop where
  someChar : text ≠ []
  wordChars : ∀ c ∈ text, isWordChar c = true
  upper_eq : Text.upper text = keyword.spelling.toList

/-- A token that is a keyword starts like a word. -/
theorem isWordStart_of_keyword {c : Char} {rest : List Char} {keyword : Keyword}
    (hread : (readToken c rest).token = .keyword keyword) : isWordStart c = true := by
  unfold readToken at hread
  split at hread <;> (try split at hread) <;> (try split at hread) <;> simp_all

/-- A token that is a keyword is read from a whole word. -/
theorem readToken_keyword {c : Char} {rest : List Char} {keyword : Keyword}
    (hread : (readToken c rest).token = .keyword keyword) :
    SpellsKeyword keyword (readToken c rest).source.front ∧
      (readToken c rest).source.rest = rest.dropWhile isWordChar := by
  have hstart := isWordStart_of_keyword hread
  rw [readToken_word hstart] at hread ⊢
  refine ⟨⟨List.cons_ne_nil _ _, ?_, ?_⟩, rfl⟩
  · exact List.forall_mem_cons.2 ⟨isWordChar_of_isWordStart hstart,
      fun _ => List.mem_takeWhile_imp⟩
  · rw [Token.ofWord] at hread
    split at hread
    · rename_i found hfound
      rw [Token.keyword.inj hread] at hfound
      exact Keyword.spelling_of_ofWord? hfound
    · cases hread

theorem spellsKeyword_of_mem_ofTextAt (start : Nat) (text : List Char) :
    ∀ lexeme ∈ Lexeme.ofTextAt start text, ∀ keyword, lexeme.token = .keyword keyword →
      SpellsKeyword keyword lexeme.text := by
  fun_induction Lexeme.ofTextAt start text with
  | case1 => simp
  | case2 start text gap here c rest hrest reading ih =>
    exact List.forall_mem_cons.2 ⟨fun keyword htoken => (readToken_keyword htoken).1, ih⟩

/-- A keyword without a gap in front of it comes first in the text. -/
theorem isWordStart_of_head_ofTextAt {start : Nat} {text : List Char} {keyword : Keyword} :
    ∀ lexeme ∈ (Lexeme.ofTextAt start text).head?, lexeme.token = .keyword keyword →
      lexeme.gap = [] → ∃ c rest, text = c :: rest ∧ isWordStart c = true := by
  have happend := cutGap_append .between text
  rw [Lexeme.ofTextAt]
  split
  · simp
  · rename_i c rest hrest
    simp only [List.head?_cons, Option.mem_some_iff, forall_eq']
    intro htoken hgap
    rw [hgap, hrest, List.nil_append] at happend
    exact ⟨c, rest, happend.symm, isWordStart_of_keyword htoken⟩

/-- Two keywords do not touch each other. -/
theorem isChain_ofTextAt (start : Nat) (text : List Char) :
    (Lexeme.ofTextAt start text).IsChain fun left right =>
      ∀ first second, left.token = .keyword first → right.token = .keyword second →
        right.gap ≠ [] := by
  fun_induction Lexeme.ofTextAt start text with
  | case1 => exact List.IsChain.singleton _
  | case2 start text gap here c rest hrest reading ih =>
    refine List.isChain_cons.2 ⟨fun next hnext first second hfirst hsecond hgap => ?_, ih⟩
    obtain ⟨d, after, hafter, hstart⟩ := isWordStart_of_head_ofTextAt next hnext hsecond hgap
    rw [(readToken_keyword hfirst).2] at hafter
    have hstop := List.head?_dropWhile_not isWordChar rest
    rw [hafter] at hstop
    simp [isWordChar_of_isWordStart hstart] at hstop

/-- Two keywords with blanks between them are no part of a separator. -/
theorem infix_of_spellsKeyword {first second : Keyword} {opening gap next text : List Char}
    (hfirst : SpellsKeyword first opening) (hsecond : SpellsKeyword second next)
    (hblanks : ∀ c ∈ gap, Text.isBlank c = true)
    (hpart : opening ++ gap ++ next <:+: separateBatches text) :
    opening ++ gap ++ next <:+: text := by
  have hword {keyword : Keyword} {part : List Char} (hpart : SpellsKeyword keyword part) :
      ';' ∉ part := fun hmem => absurd (hpart.wordChars _ hmem) (by decide)
  have hsemicolon : ';' ∉ opening ++ gap ++ next := by
    simp only [List.mem_append, not_or]
    exact ⟨⟨hword hfirst, fun hmem => absurd (hblanks _ hmem) (by decide)⟩, hword hsecond⟩
  obtain ⟨c, more, rfl⟩ := List.exists_cons_of_ne_nil hfirst.someChar
  have hspace : c ≠ ' ' := by
    rintro rfl
    exact absurd (hfirst.wordChars ' ' List.mem_cons_self) (by decide)
  exact infix_of_infix_separateBatches hspace hsemicolon hpart

/-! ## Openings -/

/-- The statement opens with two keywords that have nothing but blanks between them. -/
def OpensWith (first second : Keyword) : List Lexeme → Prop
  | opening :: next :: _ =>
    opening.token = .keyword first ∧ next.token = .keyword second ∧
      ∀ c ∈ next.gap, Text.isBlank c = true
  | _ => False

/-- The keywords that open the definitions of tables and views and the changes of tables. -/
def definitionOpenings : List (Keyword × Keyword) :=
  [(.create, .table), (.create, .view), (.alter, .table)]

/-- The statement opens like a definition, with nothing but blanks between the two words. -/
def OpensPlainly (statement : List Lexeme) : Prop :=
  ∃ opening ∈ definitionOpenings, OpensWith opening.1 opening.2 statement

section Script

variable {text : List Char} {statement : List Lexeme}

theorem infix_of_mem_scriptStatements (hstatement : statement ∈ scriptStatements text) :
    statement <:+: Lexeme.ofText (separateBatches text) := by
  have hflat := List.infix_of_mem_flatten hstatement
  rw [scriptStatements, splitStatements, flatten_splitStatementsFrom] at hflat
  exact hflat.trans (List.takeWhile_prefix _).isInfix

/-- A statement of a script that opens with two keywords has them in the text, with blanks
between them. -/
theorem exists_infix_of_opensWith {first second : Keyword}
    (hstatement : statement ∈ scriptStatements text) (hopens : OpensWith first second statement) :
    ∃ opening gap next, SpellsKeyword first opening ∧ SpellsKeyword second next ∧ gap ≠ [] ∧
      (∀ c ∈ gap, Text.isBlank c = true) ∧ opening ++ gap ++ next <:+: text := by
  match statement, hopens with
  | opening :: next :: rest, ⟨hopening, hnext, hblanks⟩ =>
    have hlexemes := infix_of_mem_scriptStatements hstatement
    have hspells : ∀ lexeme ∈ opening :: next :: rest, ∀ keyword,
        lexeme.token = .keyword keyword → SpellsKeyword keyword lexeme.text :=
      fun lexeme hmem => spellsKeyword_of_mem_ofTextAt 0 _ lexeme (hlexemes.mem hmem)
    have hfirst := hspells opening List.mem_cons_self first hopening
    have hsecond := hspells next (List.mem_cons_of_mem _ List.mem_cons_self) second hnext
    have hchain := List.IsChain.infix (isChain_ofTextAt 0 (separateBatches text)) hlexemes
    have hgap : next.gap ≠ [] :=
      (List.isChain_cons_cons.1 hchain).1 first second hopening hnext
    refine ⟨opening.text, next.gap, next.text, hfirst, hsecond, hgap, hblanks, ?_⟩
    have hpart : opening.text ++ next.gap ++ next.text <:+: separateBatches text := by
      have hflat := hlexemes.flatMap fun lexeme => lexeme.gap ++ lexeme.text
      rw [Lexeme.ofText, Lexeme.flatMap_ofTextAt] at hflat
      exact List.IsInfix.trans ⟨opening.gap, rest.flatMap fun lexeme => lexeme.gap ++ lexeme.text,
        by simp⟩ hflat
    exact infix_of_spellsKeyword hfirst hsecond hblanks hpart

end Script

end Crowfoot.Sql
