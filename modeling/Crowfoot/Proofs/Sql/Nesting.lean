import Crowfoot.Proofs.Sql.Spelling
import Crowfoot.Proofs.Text.Blanks
import Crowfoot.Sql.Phrase

/-!
# Nesting

Statements, clauses and groups end at the first token of a kind outside of
parentheses.  A run of tokens that has no such token there, and closes what it
opens, is passed over as a whole, so that a list written with commas or
semicolons is cut into the items it was written from.  Tokens that are not looked
for, in parentheses that are closed again, are such runs.
-/

namespace Crowfoot.Sql

/-- The parenthesis depth after some tokens, unless one of them is the stop
outside of parentheses. -/
def depthPast (stop : Token) : Nat → List Spelling → Option Nat
  | depth, [] => some depth
  | depth, spelling :: rest =>
    if spelling.token = stop ∧ depth = 0 then
      none
    else
      depthPast stop (spelling.token.depthAfter depth) rest

/-- From a depth of at least `base`, the tokens lead past no stop and back to the
depth they start from. -/
def KeepsDepth (stop : Token) (base : Nat) (written : List Spelling) : Prop :=
  ∀ depth, base ≤ depth → depthPast stop depth written = some depth

section KeepsDepth

variable {stop : Token} {base : Nat}

theorem depthPast_append {depth : Nat} (left right : List Spelling) :
    depthPast stop depth (left ++ right) =
      (depthPast stop depth left).bind fun after => depthPast stop after right := by
  induction left generalizing depth with
  | nil => rfl
  | cons first rest ih =>
    rw [List.cons_append, depthPast, depthPast]
    split
    · rfl
    · exact ih

theorem depthPast_cons {depth after : Nat} {lexeme : Lexeme} {tail : List Lexeme}
    (hpast : depthPast stop depth ((lexeme :: tail).map Lexeme.spelling) = some after) :
    ¬ (lexeme.token = stop ∧ depth = 0) ∧
      depthPast stop (lexeme.token.depthAfter depth) (tail.map Lexeme.spelling) = some after := by
  rw [List.map_cons, depthPast] at hpast
  split at hpast
  · simp at hpast
  · rename_i hpass
    exact ⟨hpass, hpast⟩

theorem keepsDepth_nil : KeepsDepth stop base [] :=
  fun _ _ => rfl

theorem KeepsDepth.append {left right : List Spelling} (hleft : KeepsDepth stop base left)
    (hright : KeepsDepth stop base right) : KeepsDepth stop base (left ++ right) := by
  intro depth hdepth
  rw [depthPast_append, hleft depth hdepth, Option.bind_some, hright depth hdepth]

theorem KeepsDepth.mono {written : List Spelling} {higher : Nat}
    (hkeeps : KeepsDepth stop base written) (hle : base ≤ higher) :
    KeepsDepth stop higher written :=
  fun depth hdepth => hkeeps depth (Nat.le_trans hle hdepth)

/-- The token is no parenthesis, and no stop unless inside of parentheses. -/
def IsFlat (stop : Token) (base : Nat) (token : Token) : Prop :=
  token ≠ .leftParen ∧ token ≠ .rightParen ∧ (token = stop → 0 < base)

theorem IsFlat.keepsDepth {spelling : Spelling} (hflat : IsFlat stop base spelling.token) :
    KeepsDepth stop base [spelling] := by
  obtain ⟨hleft, hright, hstop⟩ := hflat
  intro depth hdepth
  have hpass : ¬ (spelling.token = stop ∧ depth = 0) := by
    rintro ⟨heq, rfl⟩
    have hpos := hstop heq
    omega
  have hsame : spelling.token.depthAfter depth = depth := by
    unfold Token.depthAfter
    split <;> simp_all
  rw [depthPast, if_neg hpass, hsame]
  rfl

theorem keepsDepth_of_forall_isFlat {written : List Spelling}
    (hflat : ∀ spelling ∈ written, IsFlat stop base spelling.token) :
    KeepsDepth stop base written := by
  induction written with
  | nil => exact keepsDepth_nil
  | cons first rest ih =>
    obtain ⟨hfirst, hrest⟩ := List.forall_mem_cons.1 hflat
    exact hfirst.keepsDepth.append (ih hrest)

/-- What keeps the depth inside of parentheses keeps it with them. -/
theorem keepsDepth_group {inner : List Spelling} (hstop : stop ≠ .leftParen)
    (hinner : KeepsDepth stop 1 inner) :
    KeepsDepth stop 0 (openMark :: inner ++ [closeMark]) := by
  intro depth _
  have hopen : ¬ (openMark.token = stop ∧ depth = 0) := fun hand => hstop hand.1.symm
  have hclose : ¬ (closeMark.token = stop ∧ depth + 1 = 0) := by omega
  have hdeeper : openMark.token.depthAfter depth = depth + 1 := rfl
  rw [List.cons_append, depthPast, if_neg hopen, hdeeper, depthPast_append,
    hinner (depth + 1) (by omega), Option.bind_some, depthPast, if_neg hclose]
  rfl

theorem KeepsDepth.intercalate {items : List (List Spelling)}
    (hcomma : IsFlat stop base .comma) (hitems : ∀ item ∈ items, KeepsDepth stop base item) :
    KeepsDepth stop base ([commaMark].intercalate items) :=
  Text.intercalate_induction keepsDepth_nil
    (fun _ _ hitem hrest => (hitem.append (IsFlat.keepsDepth hcomma)).append hrest) hitems

end KeepsDepth

/-! ## Groups -/

theorem closeGroup?_append {depth after : Nat} {inner : List Lexeme} (rest : List Lexeme)
    (hpast : depthPast .rightParen depth (inner.map Lexeme.spelling) = some after) :
    closeGroup? depth (inner ++ rest) =
      (closeGroup? after rest).map fun (front, behind) => (inner ++ front, behind) := by
  induction inner generalizing depth with
  | nil =>
    cases hpast
    simp
  | cons lexeme tail ih =>
    obtain ⟨hpass, htail⟩ := depthPast_cons hpast
    rw [List.cons_append, closeGroup?, if_neg hpass, ih htail, Option.map_map]
    rfl

/-- A group ends where it was closed. -/
theorem closeGroup?_of_keepsDepth {inner : List Lexeme} {closing : Lexeme}
    (hinner : KeepsDepth .rightParen 0 (inner.map Lexeme.spelling))
    (hclosing : closing.token = .rightParen) (rest : List Lexeme) :
    closeGroup? 0 (inner ++ closing :: rest) = some (inner, rest) := by
  rw [closeGroup?_append _ (hinner 0 (Nat.le_refl 0)), closeGroup?, if_pos ⟨hclosing, rfl⟩]
  simp

/-! ## Lists with commas -/

theorem splitCommasFrom_append {depth after : Nat} (begun : List Lexeme) {item : List Lexeme}
    (rest : List Lexeme)
    (hpast : depthPast .comma depth (item.map Lexeme.spelling) = some after) :
    splitCommasFrom begun depth (item ++ rest) =
      splitCommasFrom (item.reverse ++ begun) after rest := by
  induction item generalizing begun depth with
  | nil =>
    cases hpast
    rfl
  | cons lexeme tail ih =>
    obtain ⟨hpass, htail⟩ := depthPast_cons hpast
    rw [List.cons_append, splitCommasFrom, if_neg hpass, ih _ htail, List.reverse_cons,
      List.append_assoc, List.singleton_append]

theorem finishPiece_reverse {piece : List Lexeme} (hsome : piece ≠ []) :
    finishPiece piece.reverse = [piece] := by
  simp [finishPiece, hsome]

/-- The items of a list are cut apart where it was written with commas. -/
theorem splitCommas_of_intercalate {items : List (List Spelling)}
    (hitems : ∀ item ∈ items, item ≠ [] ∧ KeepsDepth .comma 0 item) {lexemes : List Lexeme}
    (hlexemes : lexemes.map Lexeme.spelling = [commaMark].intercalate items) :
    (splitCommas lexemes).map (List.map Lexeme.spelling) = items := by
  induction items generalizing lexemes with
  | nil =>
    rw [List.intercalate_nil, List.map_eq_nil_iff] at hlexemes
    rw [hlexemes]
    rfl
  | cons item more ih =>
    obtain ⟨⟨hsome, hkeeps⟩, hmore⟩ := List.forall_mem_cons.1 hitems
    cases more with
    | nil =>
      rw [List.intercalate_singleton] at hlexemes
      have hne : lexemes ≠ [] := by
        rintro rfl
        exact hsome hlexemes.symm
      have hpast := hkeeps 0 (Nat.le_refl 0)
      rw [← hlexemes] at hpast
      rw [splitCommas, ← List.append_nil lexemes, splitCommasFrom_append [] [] hpast,
        List.append_nil, splitCommasFrom, finishPiece_reverse hne, List.map_singleton, hlexemes]
    | cons second others =>
      rw [List.intercalate_cons_cons, List.append_assoc, List.map_eq_append_iff] at hlexemes
      obtain ⟨piece, after, rfl, hpiece, hafter⟩ := hlexemes
      obtain ⟨comma, rest, rfl, hcomma, hrest⟩ := List.map_eq_cons_iff.1 hafter
      have hne : piece ≠ [] := by
        rintro rfl
        exact hsome hpiece.symm
      have hstop : comma.token = .comma := congrArg Spelling.token hcomma
      have hpast := hkeeps 0 (Nat.le_refl 0)
      rw [← hpiece] at hpast
      rw [splitCommas, splitCommasFrom_append [] _ hpast, List.append_nil, splitCommasFrom,
        if_pos ⟨hstop, rfl⟩, finishPiece_reverse hne, List.singleton_append, List.map_cons, hpiece,
        ← splitCommas, ih hmore hrest]

/-! ## Statements -/

/-- The token stands inside of a statement. -/
def IsInner (token : Token) : Prop :=
  token ≠ .eof ∧ token ≠ .keyword .create ∧ token ≠ .keyword .alter

/-- A written statement begins with `CREATE` and ends with its semicolon. -/
def IsWritten (statement : List Spelling) : Prop :=
  ∃ body, statement = keywordSpelling .create :: body ++ [endMark] ∧
    KeepsDepth .semicolon 0 body ∧ ∀ spelling ∈ body, IsInner spelling.token

theorem splitStatementsFrom_append {depth after : Nat} {begun body : List Lexeme}
    (rest : List Lexeme)
    (hpast : depthPast .semicolon depth (body.map Lexeme.spelling) = some after)
    (hinner : ∀ lexeme ∈ body, IsInner lexeme.token) :
    splitStatementsFrom begun depth (body ++ rest) =
      splitStatementsFrom (body.reverse ++ begun) after rest := by
  induction body generalizing begun depth with
  | nil =>
    cases hpast
    rfl
  | cons lexeme tail ih =>
    obtain ⟨⟨heof, hcreate, halter⟩, hmore⟩ := List.forall_mem_cons.1 hinner
    obtain ⟨hpass, htail⟩ := depthPast_cons hpast
    have hstep : splitStatementsFrom begun depth (lexeme :: (tail ++ rest)) =
        splitStatementsFrom (lexeme :: begun) (lexeme.token.depthAfter depth) (tail ++ rest) := by
      rw [splitStatementsFrom]
      split
      · contradiction
      · contradiction
      · contradiction
      · exact if_neg hpass
    rw [List.cons_append, hstep, ih htail hmore, List.reverse_cons, List.append_assoc,
      List.singleton_append]

/-- The statement that comes first is cut off behind its semicolon. -/
theorem splitStatements_append {first closing : Lexeme} {body : List Lexeme} (rest : List Lexeme)
    (hfirst : first.token = .keyword .create)
    (hkeeps : KeepsDepth .semicolon 0 (body.map Lexeme.spelling))
    (hinner : ∀ lexeme ∈ body, IsInner lexeme.token) (hclosing : closing.token = .semicolon) :
    splitStatements (first :: body ++ closing :: rest) =
      (first :: body ++ [closing]) :: splitStatements rest := by
  have hbegin : splitStatements (first :: (body ++ closing :: rest)) =
      splitStatementsFrom [first] 0 (body ++ closing :: rest) := by
    rw [splitStatements, splitStatementsFrom, hfirst]
    rfl
  have hend (begun : List Lexeme) : splitStatementsFrom begun 0 (closing :: rest) =
      finishPiece (closing :: begun) ++ splitStatements rest := by
    rw [splitStatements, splitStatementsFrom, hclosing]
    rfl
  have hpiece : closing :: (body.reverse ++ [first]) = (first :: body ++ [closing]).reverse := by
    simp
  rw [List.cons_append, hbegin,
    splitStatementsFrom_append _ (hkeeps 0 (Nat.le_refl 0)) hinner, hend, hpiece,
    finishPiece_reverse (by simp), List.singleton_append]

/-- Statements are cut apart as they were written. -/
theorem splitStatements_of_written {statements : List (List Spelling)}
    (hwritten : ∀ statement ∈ statements, IsWritten statement) {lexemes : List Lexeme}
    (hlexemes : lexemes.map Lexeme.spelling = statements.flatten ++ [⟨.eof, []⟩]) :
    (splitStatements lexemes).map (List.map Lexeme.spelling) = statements := by
  induction statements generalizing lexemes with
  | nil =>
    obtain ⟨last, rest, rfl, hlast, hrest⟩ := List.map_eq_cons_iff.1 hlexemes
    have heof : last.token = .eof := congrArg Spelling.token hlast
    rw [splitStatements, splitStatementsFrom, heof]
    rfl
  | cons statement more ih =>
    obtain ⟨⟨body, rfl, hkeeps, hinner⟩, hmore⟩ := List.forall_mem_cons.1 hwritten
    rw [List.flatten_cons, List.append_assoc, List.map_eq_append_iff] at hlexemes
    obtain ⟨piece, rest, rfl, hpiece, hrest⟩ := hlexemes
    obtain ⟨front, final, rfl, hfront, hfinal⟩ := List.map_eq_append_iff.1 hpiece
    obtain ⟨first, middle, rfl, hfirst, rfl⟩ := List.map_eq_cons_iff.1 hfront
    obtain ⟨closing, none, rfl, hclosing, hnone⟩ := List.map_eq_cons_iff.1 hfinal
    rw [List.map_eq_nil_iff] at hnone
    subst hnone
    have hinner' : ∀ lexeme ∈ middle, IsInner lexeme.token := fun lexeme hmem =>
      hinner lexeme.spelling (List.mem_map_of_mem hmem)
    rw [List.append_assoc, List.singleton_append,
      splitStatements_append rest (congrArg Spelling.token hfirst) hkeeps hinner'
        (congrArg Spelling.token hclosing), List.map_cons, hpiece, ih hmore hrest]

/-- Pieces that read as the values they were written from read as these values
together. -/
theorem filterMap_of_map_spelling {α β : Type} {pieces : List (List Lexeme)} {sources : List α}
    {written : α → List Spelling} {read : List Lexeme → Option β} {value : α → β}
    (hpieces : pieces.map (List.map Lexeme.spelling) = sources.map written)
    (hread : ∀ source ∈ sources, ∀ piece, piece.map Lexeme.spelling = written source →
      read piece = some (value source)) :
    pieces.filterMap read = sources.map value := by
  induction sources generalizing pieces with
  | nil =>
    rw [List.map_nil, List.map_eq_nil_iff] at hpieces
    rw [hpieces]
    rfl
  | cons source more ih =>
    obtain ⟨hsource, hmore⟩ := List.forall_mem_cons.1 hread
    obtain ⟨piece, rest, rfl, hpiece, hrest⟩ := List.map_eq_cons_iff.1 hpieces
    rw [List.filterMap_cons_some (hsource piece hpiece), ih hrest hmore, List.map_cons]

/-! ## Stops -/

/-- The tokens that end a piece of a statement outside of parentheses. -/
def IsStop (stop : Token) : Prop :=
  stop ∈ [Token.comma, .rightParen, .semicolon]

theorem isStop_comma : IsStop .comma := by simp [IsStop]

theorem isStop_rightParen : IsStop .rightParen := by simp [IsStop]

theorem isStop_semicolon : IsStop .semicolon := by simp [IsStop]

theorem IsStop.isFlat {stop : Token} (hstop : IsStop stop) (base : Nat) {token : Token}
    (htoken : token ≠ .leftParen ∧ ¬ IsStop token) : IsFlat stop base token := by
  obtain ⟨hopen, hnot⟩ := htoken
  refine ⟨hopen, ?_, ?_⟩
  · rintro rfl
    exact hnot (by simp [IsStop])
  · rintro rfl
    exact absurd hstop hnot

theorem IsStop.ne_leftParen {stop : Token} (hstop : IsStop stop) : stop ≠ .leftParen := by
  rintro rfl
  simp [IsStop] at hstop

theorem IsStop.isFlat_keyword {stop : Token} (hstop : IsStop stop) (base : Nat)
    (keyword : Keyword) : IsFlat stop base (keywordSpelling keyword).token :=
  hstop.isFlat base ⟨by simp [keywordSpelling], by simp [IsStop, keywordSpelling]⟩

theorem nameSpelling_token (name : String) :
    (nameSpelling name).token = .word name.toList ∨
      (nameSpelling name).token = .quoted name.toList := by
  rw [nameSpelling]
  dsimp only
  split
  · exact Or.inl rfl
  · exact Or.inr rfl

theorem IsStop.isFlat_name {stop : Token} (hstop : IsStop stop) (base : Nat) (name : String) :
    IsFlat stop base (nameSpelling name).token := by
  apply hstop.isFlat
  rcases nameSpelling_token name with hword | hquoted
  · simp [hword, IsStop]
  · simp [hquoted, IsStop]

/-! ## Fillers -/

/-- A token that no reader looks for, at least inside of parentheses. -/
structure IsFillerToken (inside : Bool) (token : Token) : Prop where
  noKeyword : ∀ keyword, token ≠ .keyword keyword
  noEnd : token ≠ .eof
  noParen : token ≠ .leftParen ∧ token ≠ .rightParen
  noStop : inside = false → ¬ IsStop token

/-- Tokens that readers pass over: none is looked for, and parentheses are closed
again. -/
inductive IsFiller : Bool → List Spelling → Prop
  | nil {inside : Bool} : IsFiller inside []
  | token {inside : Bool} {spelling : Spelling} {rest : List Spelling}
      (hplain : IsFillerToken inside spelling.token) (hrest : IsFiller inside rest) :
      IsFiller inside (spelling :: rest)
  | group {inside : Bool} {inner rest : List Spelling} (hinner : IsFiller true inner)
      (hrest : IsFiller inside rest) : IsFiller inside (openMark :: (inner ++ closeMark :: rest))

theorem isFiller_of_forall {inside : Bool} {written : List Spelling}
    (hwritten : ∀ spelling ∈ written, IsFillerToken inside spelling.token) :
    IsFiller inside written := by
  induction written with
  | nil => exact .nil
  | cons first rest ih =>
    obtain ⟨hfirst, hrest⟩ := List.forall_mem_cons.1 hwritten
    exact .token hfirst (ih hrest)

section Filler

variable {inside : Bool} {written : List Spelling} (hfiller : IsFiller inside written)

include hfiller

/-- What is not looked for inside of parentheses may be looked for outside, closing
parentheses apart. -/
theorem IsFiller.keepsDepth {stop : Token} (hstop : IsStop stop) {base : Nat}
    (hbase : inside = true → stop = .rightParen ∨ 0 < base) : KeepsDepth stop base written := by
  induction hfiller generalizing base with
  | nil => exact keepsDepth_nil
  | @token inside spelling rest hplain _ ih =>
    have hflat : IsFlat stop base spelling.token := by
      refine ⟨hplain.noParen.1, hplain.noParen.2, ?_⟩
      rintro rfl
      cases inside with
      | true => exact (hbase rfl).resolve_left hplain.noParen.2
      | false => exact absurd hstop (hplain.noStop rfl)
    exact hflat.keepsDepth.append (ih hbase)
  | @group inside inner rest _ _ ihInner ihRest =>
    have hgroup := (keepsDepth_group hstop.ne_leftParen
      (ihInner fun _ => Or.inr Nat.one_pos)).mono (Nat.zero_le base)
    have hall := hgroup.append (ihRest hbase)
    rwa [List.cons_append, List.cons_append, List.append_assoc, List.singleton_append] at hall

theorem IsFiller.isInner : ∀ spelling ∈ written, IsInner spelling.token := by
  have hplain {inside : Bool} {token : Token} (hplain : IsFillerToken inside token) :
      IsInner token :=
    ⟨hplain.noEnd, hplain.noKeyword .create, hplain.noKeyword .alter⟩
  induction hfiller with
  | nil => simp
  | token hfirst _ ih => exact List.forall_mem_cons.2 ⟨hplain hfirst, ih⟩
  | group _ _ ihInner ihRest =>
    refine List.forall_mem_cons.2 ⟨by simp [openMark, IsInner], ?_⟩
    exact List.forall_mem_append.2 ⟨ihInner,
      List.forall_mem_cons.2 ⟨by simp [closeMark, IsInner], ihRest⟩⟩

end Filler

end Crowfoot.Sql
