import Crowfoot.Proofs.Sql.Extent
import Crowfoot.Sql.Reader
import Mathlib.Data.List.TakeWhile

/-!
# Independent statements

Cutting a script into statements leaves out no token in front of its end and
carries nothing from one statement into the next.  What has been begun when the
first part of a script ends is closed by `CREATE` and `ALTER` wherever they stand,
and nothing is left begun behind a semicolon outside of parentheses.  Thus a
malformed statement loses itself and no other one.
-/

namespace Crowfoot.Sql

/-! ## Ranges of statements -/

/-- A run of tokens, given by the places of its first token and of the one behind
its last. -/
structure TokenRange where
  start : Nat
  stop : Nat
  deriving DecidableEq, Repr

namespace TokenRange

/-- The range with so many tokens put in front. -/
def shift (count : Nat) (range : TokenRange) : TokenRange :=
  ⟨count + range.start, count + range.stop⟩

/-- The lexemes of a range. -/
def slice (lexemes : List Lexeme) (range : TokenRange) : List Lexeme :=
  (lexemes.take range.stop).drop range.start

/-- Non-empty ranges that follow each other without a gap, from a place to another. -/
def Tile : Nat → Nat → List TokenRange → Prop
  | start, stop, [] => start = stop
  | start, stop, range :: rest =>
    range.start = start ∧ range.start < range.stop ∧ Tile range.stop stop rest

end TokenRange

/-- The ranges of pieces that follow each other from a place on. -/
def rangesFrom (start : Nat) : List (List Lexeme) → List TokenRange
  | [] => []
  | piece :: rest => ⟨start, start + piece.length⟩ :: rangesFrom (start + piece.length) rest

/-- The ranges of the statements that lexemes are cut into. -/
def statementRanges (lexemes : List Lexeme) : List TokenRange :=
  rangesFrom 0 (splitStatements lexemes)

theorem rangesFrom_append (start : Nat) (left right : List (List Lexeme)) :
    rangesFrom start (left ++ right) =
      rangesFrom start left ++ rangesFrom (start + left.flatten.length) right := by
  induction left generalizing start with
  | nil => rfl
  | cons piece rest ih =>
    simp only [List.cons_append, rangesFrom, ih, List.flatten_cons, List.length_append,
      Nat.add_assoc]

theorem rangesFrom_add (count start : Nat) (pieces : List (List Lexeme)) :
    rangesFrom (count + start) pieces = (rangesFrom start pieces).map (TokenRange.shift count) := by
  induction pieces generalizing start with
  | nil => rfl
  | cons piece rest ih =>
    simp only [rangesFrom, List.map_cons, TokenRange.shift, Nat.add_assoc, ih]

/-- Non-empty pieces have ranges that tile what they make up. -/
theorem tile_rangesFrom {pieces : List (List Lexeme)} (hsome : ∀ piece ∈ pieces, piece ≠ [])
    (start : Nat) :
    TokenRange.Tile start (start + pieces.flatten.length) (rangesFrom start pieces) := by
  induction pieces generalizing start with
  | nil => rfl
  | cons piece rest ih =>
    obtain ⟨hpiece, hrest⟩ := List.forall_mem_cons.1 hsome
    refine ⟨rfl, Nat.lt_add_of_pos_right (List.length_pos_iff.2 hpiece), ?_⟩
    have htile := ih hrest (start + piece.length)
    rwa [Nat.add_assoc, ← List.length_append, ← List.flatten_cons] at htile

/-- The range of a piece is where it stands. -/
theorem slice_rangesFrom (front rest : List Lexeme) (pieces : List (List Lexeme)) :
    (rangesFrom front.length pieces).map (TokenRange.slice (front ++ pieces.flatten ++ rest)) =
      pieces := by
  induction pieces generalizing front with
  | nil => rfl
  | cons piece more ih =>
    have htext : front ++ (piece :: more).flatten ++ rest =
        (front ++ piece) ++ more.flatten ++ rest := by
      simp
    have hslice : TokenRange.slice (front ++ piece ++ more.flatten ++ rest)
        ⟨front.length, front.length + piece.length⟩ = piece := by
      rw [TokenRange.slice, ← List.length_append, List.append_assoc, List.take_left,
        List.drop_left]
    rw [rangesFrom, List.map_cons, htext, hslice, ← List.length_append, ih]

/-! ## Statements begun and closed -/

/-- The parenthesis depth behind some lexemes. -/
def depthOf (lexemes : List Lexeme) : Nat :=
  lexemes.foldl (fun depth lexeme => lexeme.token.depthAfter depth) 0

/-- The lexemes end with a semicolon outside of parentheses. -/
def EndsClosed (lexemes : List Lexeme) : Prop :=
  ∃ body closing, lexemes = body ++ [closing] ∧ closing.token = .semicolon ∧ depthOf body = 0

/-- A statement that has been begun, given backwards with its depth, and may go on. -/
structure IsBegun (begun : List Lexeme) (depth : Nat) : Prop where
  depth_eq : depthOf begun.reverse = depth
  isOpen : ¬ EndsClosed begun.reverse

/-- None of the lexemes is the end of the text. -/
def IsEofFree (lexemes : List Lexeme) : Prop :=
  ∀ lexeme ∈ lexemes, lexeme.token ≠ .eof

/-- The lexemes start with `CREATE` or `ALTER`. -/
def StartsStatement (lexemes : List Lexeme) : Prop :=
  ∃ lexeme ∈ lexemes.head?, lexeme.token = .keyword .create ∨ lexeme.token = .keyword .alter

theorem depthOf_concat (body : List Lexeme) (last : Lexeme) :
    depthOf (body ++ [last]) = last.token.depthAfter (depthOf body) := by
  rw [depthOf, List.foldl_append]
  rfl

theorem endsClosed_concat {body : List Lexeme} {last : Lexeme} :
    EndsClosed (body ++ [last]) ↔ last.token = .semicolon ∧ depthOf body = 0 := by
  constructor
  · rintro ⟨front, closing, heq, hsemicolon, hdepth⟩
    obtain ⟨rfl, hlast⟩ := List.append_inj' heq rfl
    obtain rfl := List.singleton_inj.1 hlast
    exact ⟨hsemicolon, hdepth⟩
  · rintro ⟨hsemicolon, hdepth⟩
    exact ⟨body, last, rfl, hsemicolon, hdepth⟩

theorem isBegun_nil : IsBegun [] 0 := by
  refine ⟨rfl, ?_⟩
  rintro ⟨body, closing, heq, -⟩
  simp at heq

/-- Any token may go on with a statement but a semicolon outside of parentheses. -/
theorem IsBegun.cons {begun : List Lexeme} {depth : Nat} {lexeme : Lexeme}
    (hbegun : IsBegun begun depth) (hpass : ¬ (lexeme.token = .semicolon ∧ depth = 0)) :
    IsBegun (lexeme :: begun) (lexeme.token.depthAfter depth) := by
  constructor
  · rw [List.reverse_cons, depthOf_concat, hbegun.depth_eq]
  · rw [List.reverse_cons, endsClosed_concat, hbegun.depth_eq]
    exact hpass

theorem isBegun_keyword {lexeme : Lexeme} {keyword : Keyword}
    (htoken : lexeme.token = .keyword keyword) : IsBegun [lexeme] 0 := by
  have hbegun : IsBegun [lexeme] (lexeme.token.depthAfter 0) :=
    isBegun_nil.cons (by simp [htoken])
  rwa [htoken] at hbegun

/-! ## Cutting in two parts -/

/-- Cutting the first part of a script gives statements and what is begun at its
end; the rest is cut on from there. -/
theorem exists_splitStatementsFrom_append {begun front : List Lexeme} {depth : Nat}
    (hbegun : IsBegun begun depth) (hfront : IsEofFree front) :
    ∃ pieces pending after, IsBegun pending after ∧ ∀ rest,
      splitStatementsFrom begun depth (front ++ rest) =
        pieces ++ splitStatementsFrom pending after rest := by
  induction front generalizing begun depth with
  | nil => exact ⟨[], begun, depth, hbegun, fun rest => rfl⟩
  | cons lexeme tail ih =>
    obtain ⟨heof, htail⟩ := List.forall_mem_cons.1 hfront
    by_cases hstart : lexeme.token = .keyword .create ∨ lexeme.token = .keyword .alter
    · -- a new statement begins, whatever was begun before
      have hfresh : IsBegun [lexeme] 0 := by
        rcases hstart with hcreate | halter
        · exact isBegun_keyword hcreate
        · exact isBegun_keyword halter
      obtain ⟨pieces, pending, after, hopen, hcut⟩ := ih hfresh htail
      refine ⟨finishPiece begun ++ pieces, pending, after, hopen, fun rest => ?_⟩
      rw [List.append_assoc, ← hcut rest, List.cons_append]
      rcases hstart with htoken | htoken <;> rw [splitStatementsFrom, htoken]
    · obtain ⟨hcreate, halter⟩ := not_or.1 hstart
      have hstep (rest : List Lexeme) : splitStatementsFrom begun depth (lexeme :: rest) =
          if lexeme.token = .semicolon ∧ depth = 0 then
            finishPiece (lexeme :: begun) ++ splitStatementsFrom [] 0 rest
          else
            splitStatementsFrom (lexeme :: begun) (lexeme.token.depthAfter depth) rest := by
        rw [splitStatementsFrom]
        split <;> first | contradiction | rfl
      by_cases hclose : lexeme.token = .semicolon ∧ depth = 0
      · obtain ⟨pieces, pending, after, hopen, hcut⟩ := ih isBegun_nil htail
        refine ⟨finishPiece (lexeme :: begun) ++ pieces, pending, after, hopen, fun rest => ?_⟩
        rw [List.cons_append, hstep, if_pos hclose, hcut rest, List.append_assoc]
      · obtain ⟨pieces, pending, after, hopen, hcut⟩ := ih (hbegun.cons hclose) htail
        refine ⟨pieces, pending, after, hopen, fun rest => ?_⟩
        rw [List.cons_append, hstep, if_neg hclose, hcut rest]

theorem ne_nil_of_mem_finishPiece {reversed piece : List Lexeme}
    (hmem : piece ∈ finishPiece reversed) : piece ≠ [] := by
  rw [finishPiece] at hmem
  split at hmem
  · simp at hmem
  · rename_i hsome
    rw [List.mem_singleton.1 hmem]
    simpa using hsome

theorem ne_nil_of_mem_splitStatementsFrom (begun : List Lexeme) (depth : Nat)
    (lexemes : List Lexeme) :
    ∀ piece ∈ splitStatementsFrom begun depth lexemes, piece ≠ [] := by
  fun_induction splitStatementsFrom begun depth lexemes with
  | case1 | case2 => exact fun _ => ne_nil_of_mem_finishPiece
  | case3 _ _ _ _ _ ih | case4 _ _ _ _ _ ih | case5 _ _ _ _ _ _ _ _ ih =>
    exact List.forall_mem_append.2 ⟨fun _ => ne_nil_of_mem_finishPiece, ih⟩
  | case6 _ _ _ _ _ _ _ _ ih => exact ih

/-- `CREATE` and `ALTER` close what has been begun. -/
theorem splitStatementsFrom_of_startsStatement {rest : List Lexeme} (hstart : StartsStatement rest)
    (begun : List Lexeme) (depth : Nat) :
    splitStatementsFrom begun depth rest = finishPiece begun ++ splitStatements rest := by
  obtain ⟨lexeme, hhead, htoken⟩ := hstart
  obtain ⟨tail, rfl⟩ := List.head?_eq_some_iff.1 hhead
  rcases htoken with htoken | htoken <;>
    rw [splitStatements, splitStatementsFrom, splitStatementsFrom, htoken] <;> rfl

/-- A second part that starts a statement, or a first part with nothing begun at its
end. -/
def AreSeparate (front rest : List Lexeme) : Prop :=
  StartsStatement rest ∨ front = [] ∨ ∃ last ∈ (splitStatements front).getLast?, EndsClosed last

/-- Two separate parts of a script are cut as each of them alone. -/
theorem splitStatements_append_of_areSeparate {front rest : List Lexeme} (hfront : IsEofFree front)
    (hseparate : AreSeparate front rest) :
    splitStatements (front ++ rest) = splitStatements front ++ splitStatements rest := by
  obtain ⟨pieces, begun, depth, hbegun, hcut⟩ :=
    exists_splitStatementsFrom_append isBegun_nil hfront
  have hwhole : splitStatements front = pieces ++ finishPiece begun := by
    simpa [splitStatements, splitStatementsFrom] using hcut []
  rw [splitStatements, hcut rest]
  rcases hseparate with hstart | rfl | ⟨last, hlast, hclosed⟩
  · rw [splitStatementsFrom_of_startsStatement hstart, hwhole, List.append_assoc]
  · obtain ⟨rfl, hnone⟩ := List.append_eq_nil_iff.1 hwhole.symm
    obtain rfl : begun = [] := by simpa [finishPiece] using hnone
    rw [← hbegun.depth_eq]
    rfl
  · -- a statement begun at the end would be the last one, but it is not closed
    obtain rfl : begun = [] := by
      by_contra hsome
      have hpiece : finishPiece begun = [begun.reverse] := by simp [finishPiece, hsome]
      rw [hwhole, hpiece, List.getLast?_concat, Option.mem_some] at hlast
      exact hbegun.isOpen (hlast ▸ hclosed)
    rw [← hbegun.depth_eq, hwhole]
    simp [finishPiece, splitStatements, depthOf]

theorem length_flatten_splitStatements {lexemes : List Lexeme} (hfree : IsEofFree lexemes) :
    (splitStatements lexemes).flatten.length = lexemes.length := by
  have hall : lexemes.takeWhile (fun lexeme => lexeme.token ≠ .eof) = lexemes :=
    List.takeWhile_eq_self_iff.2 fun lexeme hmem => decide_eq_true (hfree lexeme hmem)
  rw [splitStatements, flatten_splitStatementsFrom, hall]
  rfl

/-! ## Independence -/

/-- Statements are non-empty runs of tokens that cover all of a script in front of
its end, and separate parts of a script have the statements of each part: the same
ranges, shifted by the length of what stands in front, the same tokens, and the
same readings. -/
theorem splitStatements_independent :
    (∀ lexemes, TokenRange.Tile 0 (lexemes.takeWhile fun lexeme => lexeme.token ≠ .eof).length
        (statementRanges lexemes) ∧
      (statementRanges lexemes).map (TokenRange.slice lexemes) = splitStatements lexemes) ∧
    ∀ front rest, IsEofFree front → IsEofFree rest → AreSeparate front rest →
      statementRanges (front ++ rest) =
        statementRanges front ++ (statementRanges rest).map (TokenRange.shift front.length) ∧
      splitStatements (front ++ rest) = splitStatements front ++ splitStatements rest ∧
      (splitStatements (front ++ rest)).filterMap Statement.ofLexemes? =
        (splitStatements front).filterMap Statement.ofLexemes? ++
          (splitStatements rest).filterMap Statement.ofLexemes? := by
  refine ⟨fun lexemes => ?_, fun front rest hfront _ hseparate => ?_⟩
  · have hflat : (splitStatements lexemes).flatten =
        lexemes.takeWhile fun lexeme => lexeme.token ≠ .eof := by
      rw [splitStatements, flatten_splitStatementsFrom]
      rfl
    constructor
    · rw [← hflat, ← Nat.zero_add (splitStatements lexemes).flatten.length]
      exact tile_rangesFrom (ne_nil_of_mem_splitStatementsFrom [] 0 lexemes) 0
    · have hslice := slice_rangesFrom []
        (lexemes.dropWhile fun lexeme => lexeme.token ≠ .eof) (splitStatements lexemes)
      rwa [hflat, List.nil_append, List.takeWhile_append_dropWhile] at hslice
  · have happend := splitStatements_append_of_areSeparate hfront hseparate
    refine ⟨?_, happend, ?_⟩
    · rw [statementRanges, happend, rangesFrom_append, Nat.zero_add,
        length_flatten_splitStatements hfront, ← Nat.add_zero front.length, rangesFrom_add]
      rfl
    · rw [happend, List.filterMap_append]

/-- `CREATE TABLE t ((x;` is never closed. -/
def unclosedTokens : List Lexeme :=
  [⟨[], .keyword .create, "CREATE".toList, 0⟩, ⟨[' '], .keyword .table, "TABLE".toList, 7⟩,
    ⟨[' '], .word ['t'], ['t'], 13⟩, ⟨[' '], .leftParen, ['('], 15⟩, ⟨[], .leftParen, ['('], 16⟩,
    ⟨[], .word ['x'], ['x'], 17⟩, ⟨[], .semicolon, [';'], 18⟩]

/-- `ALTER TABLE u ADD PRIMARY KEY (k);` -/
def additionTokens : List Lexeme :=
  [⟨[' '], .keyword .alter, "ALTER".toList, 20⟩, ⟨[' '], .keyword .table, "TABLE".toList, 26⟩,
    ⟨[' '], .word ['u'], ['u'], 32⟩, ⟨[' '], .keyword .add, "ADD".toList, 34⟩,
    ⟨[' '], .keyword .primary, "PRIMARY".toList, 38⟩, ⟨[' '], .keyword .key, "KEY".toList, 46⟩,
    ⟨[' '], .leftParen, ['('], 50⟩, ⟨[], .word ['k'], ['k'], 51⟩, ⟨[], .rightParen, [')'], 52⟩,
    ⟨[], .semicolon, [';'], 53⟩]

theorem splitStatements_independent_unclosedTokens :
    statementRanges unclosedTokens = [⟨0, 7⟩] ∧ statementRanges additionTokens = [⟨0, 10⟩] ∧
      statementRanges (unclosedTokens ++ additionTokens) = [⟨0, 7⟩, ⟨7, 17⟩] ∧
      (splitStatements (unclosedTokens ++ additionTokens)).filterMap Statement.ofLexemes? =
        [.alterTable ⟨"u", [.primaryKey ["k"]]⟩] := by
  have hfront : IsEofFree unclosedTokens := by
    unfold IsEofFree
    decide
  have hrest : IsEofFree additionTokens := by
    unfold IsEofFree
    decide
  obtain ⟨hranges, -, hread⟩ := splitStatements_independent.2 unclosedTokens additionTokens hfront
    hrest (.inl ⟨_, rfl, .inr rfl⟩)
  rw [hranges, hread]
  decide +kernel

end Crowfoot.Sql
