import Crowfoot.Proofs.Highlight.Cover
import Crowfoot.Proofs.Sql.Separators
import Crowfoot.Sql.Highlight

/-!
# Extents of statements

Every lexeme stands in the text where it says, one behind the other.  Statements
are runs of lexemes, so they follow each other too, and the offsets at which they
start and end lie between characters.  All this holds of the script that is read,
in which batch separators are overwritten; a separator and what it is overwritten
with have the same size, so the offsets mean the same in the text.
-/

namespace Crowfoot.Sql

/-! ## Lexemes -/

/-- Every lexeme stands at the offset it carries. -/
theorem standsAt_of_mem_ofTextAt (start : Nat) (text : List Char) :
    ∀ lexeme ∈ Lexeme.ofTextAt start text,
      ∃ offset, lexeme.start = start + offset ∧ Text.StandsAt text lexeme.text offset := by
  fun_induction Lexeme.ofTextAt start text with
  | case1 start text gap here hrest =>
    intro lexeme hmem
    obtain rfl := List.mem_singleton.1 hmem
    have happend := cutGap_append .between text
    exact ⟨Text.byteLength gap.front, rfl, gap.front, gap.rest, by simpa [gap] using happend.symm,
      rfl⟩
  | case2 start text gap here c rest hrest reading ih =>
    have htext : text = gap.front ++ (reading.source.front ++ reading.source.rest) := by
      rw [readToken_append, ← hrest, cutGap_append]
    intro lexeme hmem
    rcases List.mem_cons.1 hmem with rfl | hlater
    · exact ⟨Text.byteLength gap.front, rfl, gap.front, reading.source.rest, htext, rfl⟩
    · obtain ⟨offset, hstart, hstands⟩ := ih lexeme hlater
      refine ⟨Text.byteLength gap.front + (Text.byteLength reading.source.front + offset), ?_, ?_⟩
      · rw [hstart]
        omega
      · rw [htext]
        exact (hstands.append_left reading.source.front).append_left gap.front

/-- Lexemes follow each other. -/
theorem pairwise_ofTextAt (start : Nat) (text : List Char) :
    (Lexeme.ofTextAt start text).Pairwise fun left right => left.stop ≤ right.start := by
  fun_induction Lexeme.ofTextAt start text with
  | case1 => exact List.pairwise_singleton _ _
  | case2 start text gap here c rest hrest reading ih =>
    refine List.pairwise_cons.2 ⟨?_, ih⟩
    intro later hlater
    obtain ⟨offset, hstart, -⟩ := standsAt_of_mem_ofTextAt _ _ later hlater
    rw [hstart]
    exact Nat.le_add_right _ _

/-! ## Statements -/

/-- Nothing in front of the end of the text is left out of the statements. -/
theorem flatten_splitStatementsFrom (begun : List Lexeme) (depth : Nat) (lexemes : List Lexeme) :
    (splitStatementsFrom begun depth lexemes).flatten =
      begun.reverse ++ lexemes.takeWhile fun lexeme => lexeme.token ≠ .eof := by
  fun_induction splitStatementsFrom begun depth lexemes with
  | case1 begun => simp [flatten_finishPiece]
  | case2 begun depth lexeme rest heof => simp [flatten_finishPiece, heof]
  | case3 begun depth lexeme rest hcreate ih =>
    simp [flatten_finishPiece, hcreate, ih]
  | case4 begun depth lexeme rest halter ih =>
    simp [flatten_finishPiece, halter, ih]
  | case5 begun depth lexeme rest token hsemicolon =>
    simp_all [flatten_finishPiece]
  | case6 begun depth lexeme rest token => simp_all

section Script

variable {text : List Char} {statement : List Lexeme}

/-- The lexemes of all statements of a script follow each other. -/
theorem pairwise_flatten_scriptStatements (text : List Char) :
    (scriptStatements text).flatten.Pairwise fun left right => left.stop ≤ right.start := by
  rw [scriptStatements, splitStatements, flatten_splitStatementsFrom]
  exact (pairwise_ofTextAt 0 (separateBatches text)).sublist (List.takeWhile_sublist _)

theorem mem_ofText_of_mem_scriptStatements (hstatement : statement ∈ scriptStatements text)
    {lexeme : Lexeme} (hmem : lexeme ∈ statement) :
    lexeme ∈ Lexeme.ofText (separateBatches text) := by
  have hflat : lexeme ∈ (scriptStatements text).flatten :=
    List.mem_flatten_of_mem hstatement hmem
  rw [scriptStatements, splitStatements, flatten_splitStatementsFrom] at hflat
  exact (List.takeWhile_sublist _).mem hflat

/-- The lexemes of a statement start and stop between characters of the text. -/
theorem isBoundary_of_mem_scriptStatements (hstatement : statement ∈ scriptStatements text)
    {lexeme : Lexeme} (hmem : lexeme ∈ statement) :
    Text.IsBoundary text lexeme.start ∧ Text.IsBoundary text lexeme.stop := by
  obtain ⟨offset, hstart, hstands⟩ := standsAt_of_mem_ofTextAt 0 (separateBatches text) lexeme
    (mem_ofText_of_mem_scriptStatements hstatement hmem)
  rw [Nat.zero_add] at hstart
  rw [Lexeme.stop, hstart]
  exact ⟨hstands.isBoundary_start.of_map_utf8Size (map_utf8Size_separateBatches text),
    hstands.isBoundary_stop.of_map_utf8Size (map_utf8Size_separateBatches text)⟩

end Script

/-! ## Blocks -/

theorem statementBlock?_eq_some_iff {statement : List Lexeme} {block : MarkedRange} :
    statementBlock? statement = some block ↔
      (∃ lexeme ∈ statement, lexeme.token ≠ .semicolon) ∧
        ∃ first ∈ statement.head?, ∃ last ∈ statement.getLast?,
          block = ⟨first.start, last.stop, hasStatementShape statement⟩ := by
  have hall : (statement.all fun lexeme => lexeme.token = .semicolon) = true ↔
      ¬ ∃ lexeme ∈ statement, lexeme.token ≠ .semicolon := by
    simp
  rw [statementBlock?]
  split
  · rename_i hsemicolons
    simp [hall.1 hsemicolons]
  · rename_i hother
    have hsome := not_not.1 (mt hall.2 hother)
    simp only [Option.bind_eq_bind, Option.bind_eq_some_iff, Option.pure_def, Option.some.injEq,
      Option.mem_def, hsome, true_and, eq_comm (a := block)]

theorem start_le_stop (lexeme : Lexeme) : lexeme.start ≤ lexeme.stop :=
  Nat.le_add_right _ _

/-- A statement does not stop before it starts. -/
theorem start_head_le_stop_getLast {statement : List Lexeme} {first last : Lexeme}
    (hordered : statement.Pairwise fun left right => left.stop ≤ right.start)
    (hfirst : first ∈ statement.head?) (hlast : last ∈ statement.getLast?) :
    first.start ≤ last.stop := by
  obtain ⟨rest, rfl⟩ := List.head?_eq_some_iff.1 hfirst
  rcases List.mem_cons.1 (List.mem_of_getLast? hlast) with rfl | hmem
  · exact start_le_stop last
  · calc
      first.start ≤ first.stop := start_le_stop first
      _ ≤ last.start := (List.pairwise_cons.1 hordered).1 last hmem
      _ ≤ last.stop := start_le_stop last

section Blocks

variable {text : List Char} {block : MarkedRange}

/-- The blocks of the statements of a script. -/
def statementBlocks (text : List Char) : List MarkedRange :=
  (scriptStatements text).filterMap statementBlock?

theorem start_le_stop_of_mem_statementBlocks (hblock : block ∈ statementBlocks text) :
    block.start ≤ block.stop := by
  obtain ⟨statement, hstatement, hsome⟩ := List.mem_filterMap.1 hblock
  obtain ⟨-, first, hfirst, last, hlast, rfl⟩ := statementBlock?_eq_some_iff.1 hsome
  have hordered := (List.pairwise_flatten.1 (pairwise_flatten_scriptStatements text)).1
  exact start_head_le_stop_getLast (hordered statement hstatement) hfirst hlast

theorem isBoundary_of_mem_statementBlocks (hblock : block ∈ statementBlocks text) :
    Text.IsBoundary text block.start ∧ Text.IsBoundary text block.stop := by
  obtain ⟨statement, hstatement, hsome⟩ := List.mem_filterMap.1 hblock
  obtain ⟨-, first, hfirst, last, hlast, rfl⟩ := statementBlock?_eq_some_iff.1 hsome
  exact ⟨(isBoundary_of_mem_scriptStatements hstatement (List.mem_of_head? hfirst)).1,
    (isBoundary_of_mem_scriptStatements hstatement (List.mem_of_getLast? hlast)).2⟩

/-- The blocks of a script follow each other. -/
theorem pairwise_statementBlocks (text : List Char) :
    (statementBlocks text).Pairwise fun left right => left.stop ≤ right.start := by
  rw [statementBlocks, List.pairwise_filterMap]
  refine (List.pairwise_flatten.1 (pairwise_flatten_scriptStatements text)).2.imp ?_
  intro left right hordered block hblock later hlater
  obtain ⟨-, _, -, last, hlast, rfl⟩ := statementBlock?_eq_some_iff.1 hblock
  obtain ⟨-, first, hfirst, _, -, rfl⟩ := statementBlock?_eq_some_iff.1 hlater
  exact hordered last (List.mem_of_getLast? hlast) first (List.mem_of_head? hfirst)

end Blocks

end Crowfoot.Sql
