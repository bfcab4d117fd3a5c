import Crowfoot.Proofs.Sql.Extent
import Crowfoot.Proofs.Sql.Spelling
import Mathlib.Data.List.Infix

/-!
# Spans of tokens

The tokens of a script stand where their offsets say, none of them empty, up to the end
of the script.  Between them are gaps: blanks and comments with their ends, and in front
of the end perhaps a comment that runs to it.  A script differs from its text in letters
of separators only, so the offsets point at the same places of the text.
-/

namespace Crowfoot.Sql

/-! ## Gaps -/

/-- A comment with its end, which is the first that it could have. -/
inductive IsComment : List Char → Prop
  | dashes {body : List Char} (hline : '\n' ∉ body) : IsComment ('-' :: '-' :: (body ++ ['\n']))
  | hash {body : List Char} (hline : '\n' ∉ body) : IsComment ('#' :: (body ++ ['\n']))
  | block {body : List Char} (hopen : ¬ ['*', '/'] <:+: body ++ ['*']) :
      IsComment ('/' :: '*' :: (body ++ ['*', '/']))

/-- A comment that has no end. -/
inductive IsOpenComment : List Char → Prop
  | dashes {body : List Char} (hline : '\n' ∉ body) : IsOpenComment ('-' :: '-' :: body)
  | hash {body : List Char} (hline : '\n' ∉ body) : IsOpenComment ('#' :: body)
  | block {body : List Char} (hopen : ¬ ['*', '/'] <:+: body) : IsOpenComment ('/' :: '*' :: body)

/-- Blanks and comments. -/
inductive IsGap : List Char → Prop
  | nil : IsGap []
  | blank {c : Char} {rest : List Char} (hblank : Text.isBlank c = true) (hrest : IsGap rest) :
      IsGap (c :: rest)
  | comment {comment rest : List Char} (hcomment : IsComment comment) (hrest : IsGap rest) :
      IsGap (comment ++ rest)

/-- Blanks and comments, the last of which has no end. -/
def RunsOut (text : List Char) : Prop :=
  ∃ gap comment, text = gap ++ comment ∧ IsGap gap ∧ IsOpenComment comment

/-- What stands in front of the rest of a text is a gap, perhaps one that takes up the
rest. -/
def IsGapBefore (rest gap : List Char) : Prop :=
  IsGap gap ∨ rest = [] ∧ RunsOut gap

section Gaps

variable {rest gap : List Char}

theorem IsGapBefore.blank {c : Char} (hblank : Text.isBlank c = true)
    (hgap : IsGapBefore rest gap) : IsGapBefore rest (c :: gap) := by
  rcases hgap with hgap | ⟨hrest, front, comment, rfl, hfront, hcomment⟩
  · exact Or.inl (.blank hblank hgap)
  · exact Or.inr ⟨hrest, c :: front, comment, rfl, .blank hblank hfront, hcomment⟩

theorem IsGapBefore.comment {comment : List Char} (hcomment : IsComment comment)
    (hgap : IsGapBefore rest gap) : IsGapBefore rest (comment ++ gap) := by
  rcases hgap with hgap | ⟨hrest, front, last, rfl, hfront, hlast⟩
  · exact Or.inl (.comment hcomment hgap)
  · exact Or.inr ⟨hrest, comment ++ front, last, by rw [List.append_assoc],
      .comment hcomment hfront, hlast⟩

theorem isGapBefore_of_isOpenComment (hrest : rest = []) (hcomment : IsOpenComment gap) :
    IsGapBefore rest gap :=
  Or.inr ⟨hrest, [], gap, rfl, .nil, hcomment⟩

end Gaps

/-- What is cut off a text at a place in a gap: from inside of a comment it is the rest of
the comment, up to its end if there is one, and what follows the end. -/
def CutsGap : GapPlace → Cut → Prop
  | .between, cut => IsGapBefore cut.rest cut.front
  | .lineComment, cut =>
    (∃ body gap, cut.front = body ++ '\n' :: gap ∧ '\n' ∉ body ∧ IsGapBefore cut.rest gap) ∨
      cut.rest = [] ∧ '\n' ∉ cut.front
  | .blockComment, cut =>
    (∃ body gap, cut.front = body ++ '*' :: '/' :: gap ∧ ¬ ['*', '/'] <:+: body ++ ['*'] ∧
        IsGapBefore cut.rest gap) ∨
      cut.rest = [] ∧ ¬ ['*', '/'] <:+: cut.front

section CutsGap

variable {cut : Cut}

/-- A comment that ends with the line follows its opening. -/
theorem CutsGap.openLine (opening : List Char) (hcut : CutsGap .lineComment cut)
    (hclosed : ∀ body, '\n' ∉ body → IsComment (opening ++ (body ++ ['\n'])))
    (hopen : ∀ body, '\n' ∉ body → IsOpenComment (opening ++ body)) :
    IsGapBefore cut.rest (opening ++ cut.front) := by
  rcases hcut with ⟨body, gap, hfront, hline, hgap⟩ | ⟨hrest, hline⟩
  · have hall := hgap.comment (hclosed body hline)
    rw [hfront]
    simpa using hall
  · exact isGapBefore_of_isOpenComment hrest (hopen _ hline)

theorem CutsGap.openBlock (hcut : CutsGap .blockComment cut) :
    IsGapBefore cut.rest ('/' :: '*' :: cut.front) := by
  rcases hcut with ⟨body, gap, hfront, hopen, hgap⟩ | ⟨hrest, hopen⟩
  · have hall := hgap.comment (.block hopen)
    rw [hfront]
    simpa using hall
  · exact isGapBefore_of_isOpenComment hrest (.block hopen)

theorem CutsGap.keepLine {c : Char} (hc : c ≠ '\n') (hcut : CutsGap .lineComment cut) :
    CutsGap .lineComment (cut.keep c) := by
  rcases hcut with ⟨body, gap, hfront, hline, hgap⟩ | ⟨hrest, hline⟩
  · refine Or.inl ⟨c :: body, gap, ?_, ?_, hgap⟩
    · rw [Cut.keep_front, hfront, List.cons_append]
    · exact fun hmem => (List.mem_cons.1 hmem).elim (fun heq => hc heq.symm) hline
  · refine Or.inr ⟨hrest, ?_⟩
    exact fun hmem => (List.mem_cons.1 hmem).elim (fun heq => hc heq.symm) hline

/-- A character goes on with a block comment unless it closes the comment with the next. -/
theorem CutsGap.keepBlock {c : Char}
    (hnext : c = '*' → ∀ tail, cut.front ++ cut.rest ≠ '/' :: tail)
    (hcut : CutsGap .blockComment cut) : CutsGap .blockComment (cut.keep c) := by
  -- a new end of the comment would have to begin at the character itself
  have hends {part : List Char} (hpart : part <+: cut.front ++ cut.rest)
      (hopen : ¬ ['*', '/'] <:+: part) : ¬ ['*', '/'] <:+: c :: part := by
    intro hinfix
    rcases List.infix_cons_iff.1 hinfix with hfirst | hlater
    · obtain ⟨hstar, tail, rfl⟩ := List.cons_prefix_cons.1 hfirst
      obtain ⟨more, hmore⟩ := hpart
      exact hnext hstar.symm _ hmore.symm
    · exact hopen hlater
  rcases hcut with ⟨body, gap, hfront, hopen, hgap⟩ | ⟨hrest, hopen⟩
  · refine Or.inl ⟨c :: body, gap, ?_, ?_, hgap⟩
    · rw [Cut.keep_front, hfront, List.cons_append]
    · exact hends ⟨'/' :: gap ++ cut.rest, by simp [hfront]⟩ hopen
  · exact Or.inr ⟨hrest, hends (List.prefix_append _ _) hopen⟩

end CutsGap

/-- The front of a text is cut off as a gap. -/
theorem cutsGap_cutGap (place : GapPlace) (text : List Char) :
    CutsGap place (cutGap place text) := by
  fun_induction cutGap place text with
  | case1 place =>
    cases place with
    | between => exact Or.inl .nil
    | lineComment => exact Or.inr ⟨rfl, List.not_mem_nil⟩
    | blockComment => exact Or.inr ⟨rfl, by simp⟩
  | case2 rest ih => exact ih.openLine ['-', '-'] (fun _ => .dashes) fun _ => .dashes
  | case3 rest ih => exact ih.openLine ['#'] (fun _ => .hash) fun _ => .hash
  | case4 rest ih => exact ih.openBlock
  | case5 c rest _ _ _ hblank ih => exact IsGapBefore.blank hblank ih
  | case6 c rest _ _ _ hblank => exact Or.inl .nil
  | case7 c rest ih =>
    by_cases hc : c = '\n'
    · subst hc
      exact Or.inl ⟨[], _, rfl, List.not_mem_nil, ih⟩
    · rw [if_neg hc] at ih ⊢
      exact ih.keepLine hc
  | case8 rest ih => exact Or.inl ⟨[], _, rfl, by decide, ih⟩
  | case9 c rest hnext ih =>
    refine ih.keepBlock fun hc tail htail => ?_
    rw [cutGap_append] at htail
    exact hnext tail hc htail

/-! ## Tokens -/

/-- Each of the lexemes follows the one before it, and the first one a byte offset, with
nothing but a gap between them. -/
def FollowWithGaps (text : List Char) : Nat → List Lexeme → Prop
  | _, [] => True
  | stop, lexeme :: rest =>
    (∃ gap, Text.StandsAt text gap stop ∧ lexeme.start = stop + Text.byteLength gap ∧
        (IsGap gap ∨ lexeme.token = .eof ∧ RunsOut gap)) ∧
      FollowWithGaps text lexeme.stop rest

/-- The lexemes of a text stand where their offsets say, up to one end of the text: they
are in order, none but the end is empty, and nothing but gaps is between them. -/
structure AreSpans (text : List Char) (lexemes : List Lexeme) : Prop where
  ends : ∃ tokens last, lexemes = tokens ++ [last] ∧ (∀ lexeme ∈ tokens, lexeme.token ≠ .eof) ∧
    last.token = .eof ∧ last.start = Text.byteLength text ∧ last.stop = Text.byteLength text
  nonempty : ∀ lexeme ∈ lexemes, lexeme.token ≠ .eof → lexeme.start < lexeme.stop
  ordered : lexemes.Pairwise fun left right => left.stop ≤ right.start
  stands : ∀ lexeme ∈ lexemes, Text.StandsAt text lexeme.text lexeme.start
  gaps : FollowWithGaps text 0 lexemes

theorem readToken_token_ne_eof (c : Char) (rest : List Char) : (readToken c rest).token ≠ .eof := by
  unfold readToken
  split <;> (try split) <;> (try split) <;> simp [Token.ofWord]
  split <;> simp

/-- The last lexeme is the end of the text, and no other is. -/
theorem exists_last_ofTextAt (start : Nat) (text : List Char) :
    ∃ tokens gap, Lexeme.ofTextAt start text =
        tokens ++ [⟨gap, .eof, [], start + Text.byteLength text⟩] ∧
      ∀ lexeme ∈ tokens, lexeme.token ≠ .eof := by
  fun_induction Lexeme.ofTextAt start text with
  | case1 start text gap here hrest =>
    have happend := cutGap_append .between text
    rw [hrest, List.append_nil] at happend
    exact ⟨[], gap.front, by rw [← happend]; rfl, by simp⟩
  | case2 start text gap here c rest hrest reading ih =>
    obtain ⟨tokens, last, hlexemes, htokens⟩ := ih
    have hlength : Text.byteLength text = Text.byteLength gap.front +
        (Text.byteLength reading.source.front + Text.byteLength reading.source.rest) := by
      rw [← Text.byteLength_append, readToken_append, ← Text.byteLength_append, ← hrest,
        cutGap_append]
    refine ⟨⟨gap.front, reading.token, reading.source.front, here⟩ :: tokens, last, ?_,
      List.forall_mem_cons.2 ⟨readToken_token_ne_eof c rest, htokens⟩⟩
    rw [hlexemes, hlength, List.cons_append, Nat.add_assoc, Nat.add_assoc]

theorem text_ne_nil_of_mem_ofTextAt (start : Nat) (text : List Char) :
    ∀ lexeme ∈ Lexeme.ofTextAt start text, lexeme.token ≠ .eof → lexeme.text ≠ [] := by
  fun_induction Lexeme.ofTextAt start text with
  | case1 => simp
  | case2 start text gap here c rest hrest reading ih =>
    obtain ⟨tail, hfront⟩ := readToken_front c rest
    refine List.forall_mem_cons.2 ⟨fun _ => ?_, ih⟩
    exact hfront ▸ List.cons_ne_nil c tail

/-- Whatever comes before a text, its lexemes follow it with gaps. -/
theorem followWithGaps_ofTextAt (start : Nat) (text : List Char) :
    ∀ before, Text.byteLength before = start →
      FollowWithGaps (before ++ text) start (Lexeme.ofTextAt start text) := by
  fun_induction Lexeme.ofTextAt start text with
  | case1 start text gap here hrest =>
    intro before hstart
    have happend := cutGap_append .between text
    have hgap : IsGapBefore gap.rest gap.front := cutsGap_cutGap .between text
    refine ⟨⟨gap.front, ⟨before, gap.rest, ?_, hstart⟩, rfl, ?_⟩, trivial⟩
    · rw [happend]
    · exact hgap.imp_right fun hout => ⟨rfl, hout.2⟩
  | case2 start text gap here c rest hrest reading ih =>
    intro before hstart
    have htext : text = gap.front ++ (reading.source.front ++ reading.source.rest) := by
      rw [readToken_append, ← hrest, cutGap_append]
    have hgap : IsGapBefore gap.rest gap.front := cutsGap_cutGap .between text
    have hclosed : IsGap gap.front := by
      refine hgap.resolve_right fun hout => ?_
      rw [hrest] at hout
      exact List.cons_ne_nil c rest hout.1
    have hbefore : Text.byteLength (before ++ gap.front ++ reading.source.front) =
        here + Text.byteLength reading.source.front := by
      rw [Text.byteLength_append, Text.byteLength_append, hstart]
    have hlater := ih (before ++ gap.front ++ reading.source.front) hbefore
    rw [List.append_assoc, List.append_assoc, ← htext] at hlater
    refine ⟨⟨gap.front, ⟨before, reading.source.front ++ reading.source.rest, ?_, hstart⟩, rfl,
      Or.inl hclosed⟩, hlater⟩
    rw [← htext]

theorem areSpans_ofText (text : List Char) : AreSpans text (Lexeme.ofText text) where
  ends := by
    obtain ⟨tokens, gap, hlexemes, htokens⟩ := exists_last_ofTextAt 0 text
    rw [Nat.zero_add] at hlexemes
    exact ⟨tokens, _, hlexemes, htokens, rfl, rfl, rfl⟩
  nonempty lexeme hmem htoken := by
    have hpos := Text.byteLength_pos (text_ne_nil_of_mem_ofTextAt 0 text lexeme hmem htoken)
    rw [Lexeme.stop]
    omega
  ordered := pairwise_ofTextAt 0 text
  stands lexeme hmem := by
    obtain ⟨offset, hstart, hstands⟩ := standsAt_of_mem_ofTextAt 0 text lexeme hmem
    rwa [hstart, Nat.zero_add]
  gaps := followWithGaps_ofTextAt 0 text [] rfl

/-! ## Scripts and their texts -/

/-- A script that is a text with its separators overwritten: byte offsets mean the same in
both, and just the letters of separators differ. -/
structure IsOverwritten (text script : List Char) : Prop where
  byteLength_eq : Text.byteLength script = Text.byteLength text
  isBoundary_iff : ∀ offset, Text.IsBoundary script offset ↔ Text.IsBoundary text offset
  overwrites : Overwrites text 0 text script
  separators : ∀ offset, SeparatorAt text offset → Text.StandsAt script [';', ' '] offset

theorem isOverwritten_separateBatches (text : List Char) :
    IsOverwritten text (separateBatches text) where
  byteLength_eq := Text.byteLength_eq_of_map_utf8Size (map_utf8Size_separateBatches text)
  isBoundary_iff _ :=
    ⟨Text.IsBoundary.of_map_utf8Size (map_utf8Size_separateBatches text),
      Text.IsBoundary.of_map_utf8Size (map_utf8Size_separateBatches text).symm⟩
  overwrites := overwrites_separateBatches text
  separators _ := standsAt_of_separatorAt

/-- A part of the script is written over a part of the text that takes up the same bytes. -/
theorem IsOverwritten.exists_part {text script written : List Char} {offset : Nat}
    (hscript : IsOverwritten text script) (hstands : Text.StandsAt script written offset) :
    ∃ part, Text.StandsAt text part offset ∧
      Text.byteLength part = Text.byteLength written ∧ Overwrites text offset part written := by
  obtain ⟨before, after, rfl, rfl⟩ := hstands
  obtain ⟨left, others, hwhole, hleft, -, hothers⟩ := hscript.overwrites.exists_of_append
  obtain ⟨part, right, rfl, hlength, hpart, -⟩ := hothers.exists_of_append
  rw [Nat.zero_add] at hpart
  exact ⟨part, ⟨left, right, hwhole, hleft⟩, hlength, hpart⟩

/-- The offsets of tokens are faithful to the text.  The script that is read is the text
with the letters of separators overwritten, once and for all; its tokens follow each other
up to its end with nothing but gaps between them, and each of them takes up a part of the
text from which it differs in letters of separators only. -/
theorem ofText_separateBatches_faithful (text : List Char) :
    IsOverwritten text (separateBatches text) ∧
      separateBatches (separateBatches text) = separateBatches text ∧
      AreSpans (separateBatches text) (Lexeme.ofText (separateBatches text)) ∧
      ∀ lexeme ∈ Lexeme.ofText (separateBatches text),
        Text.IsBoundary text lexeme.start ∧ Text.IsBoundary text lexeme.stop ∧
          ∃ part, Text.StandsAt text part lexeme.start ∧
            lexeme.stop = lexeme.start + Text.byteLength part ∧
            Overwrites text lexeme.start part lexeme.text := by
  have hscript := isOverwritten_separateBatches text
  have hspans := areSpans_ofText (separateBatches text)
  refine ⟨hscript, separateBatches_separateBatches text, hspans, fun lexeme hmem => ?_⟩
  obtain ⟨part, hpart, hlength, hwritten⟩ := hscript.exists_part (hspans.stands lexeme hmem)
  have hstop : lexeme.stop = lexeme.start + Text.byteLength part := by
    rw [Lexeme.stop, hlength]
  exact ⟨hpart.isBoundary_start, hstop ▸ hpart.isBoundary_stop, part, hpart, hstop, hwritten⟩

end Crowfoot.Sql
