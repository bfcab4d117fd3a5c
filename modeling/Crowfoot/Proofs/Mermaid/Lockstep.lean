import Crowfoot.Mermaid.Diagram
import Crowfoot.Proofs.Mermaid.Extent
import Crowfoot.Proofs.Mermaid.Written

/-!
# Highlighting in lockstep

The lines of a diagram are gone through twice: by the scan that collects the
contents, and by the highlighting that judges every line.  Both know before each
line whether a block is open, and they agree on it after any number of lines, so
that a line is marked valid exactly when the scan passes nothing of it over.
-/

namespace Crowfoot.Mermaid

/-! ## Lines without their ends -/

/-- A line without the line feed that ends it and a carriage return in front of that. -/
def dropLineEnd (raw : List Char) : List Char :=
  if raw.getLast? = some '\n' then
    if raw.dropLast.getLast? = some '\r' then raw.dropLast.dropLast else raw.dropLast
  else
    raw

/-- Reads a line after the header; a closing brace alone ends a block at once. -/
def Scan.stepBrace (scan : Scan) (text : List Char) : Scan :=
  match scan.block with
  | some name => if text = ['\x7d'] then { scan with block := none } else scan.inBlock name text
  | none => scan.step text

/-- Reads a diagram from lines that are cut without their ends. -/
def readBareLines? (text : List Char) : Option Diagram :=
  match ((Text.linesOf text).map dropLineEnd).filter fun line => !isIgnored (Text.trim line) with
  | [] => none
  | first :: rest =>
    if isHeader (Text.trim first) then
      some (rest.foldl (fun scan line => scan.stepBrace (Text.trim line)) ({} : Scan)).diagram
    else
      none

/-- The end of a line is blank. -/
theorem trim_dropLineEnd (raw : List Char) : Text.trim (dropLineEnd raw) = Text.trim raw := by
  have hdrop {raw : List Char} {c : Char} (hlast : raw.getLast? = some c)
      (hc : Text.isBlank c = true) : Text.trim raw.dropLast = Text.trim raw := by
    obtain ⟨front, rfl⟩ := List.getLast?_eq_some_iff.1 hlast
    rw [List.dropLast_concat, Text.trim_concat hc]
  rw [dropLineEnd]
  split
  · rename_i hfeed
    have hfeed := hdrop hfeed (by decide)
    split
    · rename_i hreturn
      rw [hdrop hreturn (by decide), hfeed]
    · exact hfeed
  · rfl

/-- A closing brace alone is an attribute line like others, one that names no attribute. -/
theorem Scan.stepBrace_eq_step (scan : Scan) (text : List Char) :
    scan.stepBrace text = scan.step text := by
  rw [Scan.stepBrace]
  split
  · rename_i name hblock
    rw [Scan.step, hblock]
    simp only
    split
    · rename_i hbrace
      rw [hbrace, Scan.inBlock, show cutClosingBrace ['\x7d'] = ([], true) by decide]
      rfl
    · rfl
  · rfl

/-- Where lines are cut and how a closing brace alone is read make no difference. -/
theorem readBareLines?_eq_ofText? (text : List Char) :
    readBareLines? text = Diagram.ofText? text := by
  have hlines : (((Text.linesOf text).map dropLineEnd).filter fun line =>
      !isIgnored (Text.trim line)).map Text.trim = (Line.ofText text).map Line.text := by
    have htrim : (Text.linesOf text).map Text.trim =
        ((Text.linesOf text).map dropLineEnd).map Text.trim := by
      rw [List.map_map]
      exact List.map_congr_left fun raw _ => (trim_dropLineEnd raw).symm
    rw [map_text_ofText, lineTexts, htrim]
    exact (List.filter_map (f := Text.trim) (p := fun line => !isIgnored line)).symm
  rw [readBareLines?, Diagram.ofText?]
  cases hfirst : Line.ofText text with
  | nil =>
    rw [hfirst, List.map_nil, List.map_eq_nil_iff] at hlines
    rw [hlines]
  | cons first rest =>
    rw [hfirst, List.map_cons] at hlines
    obtain ⟨first', rest', heq, htext, hrest⟩ := List.map_eq_cons_iff.1 hlines
    have hstep : (fun (scan : Scan) line => scan.stepBrace (Text.trim line)) =
        fun scan line => scan.step (Text.trim line) := by
      funext scan line
      exact scan.stepBrace_eq_step (Text.trim line)
    rw [heq]
    simp only
    rw [htext, hstep, ← List.foldl_map (f := Text.trim) (g := Scan.step), hrest, List.foldl_map]

/-! ## What a scan takes -/

/-- The attribute text of a block's line is empty or names an attribute. -/
def HoldsAttribute (text : List Char) : Prop :=
  (cutClosingBrace text).1 = [] ∨ ∃ entry, readAttribute? (cutClosingBrace text).1 = some entry

/-- The scan passes nothing of a line over. -/
inductive Scan.TakesWhole (scan : Scan) (text : List Char) : Prop
  | relationship (htop : scan.block = none) (relationship : Relationship)
    (hread : readRelationship? text = some relationship)
  | blockStart (htop : scan.block = none) (hother : readRelationship? text = none) (name : String)
    (rest : List Char) (hread : readBlockStart? text = some (name, rest))
    (hattribute : HoldsAttribute rest)
  | attribute (name : String) (hblock : scan.block = some name) (hattribute : HoldsAttribute text)

theorem addAttribute_of_not_holdsAttribute {text : List Char} (hnone : ¬ HoldsAttribute text)
    (diagram : Diagram) (name : String) :
    diagram.addAttribute name (cutClosingBrace text).1 = diagram := by
  obtain ⟨-, hnone⟩ := not_or.1 hnone
  rw [Diagram.addAttribute]
  split
  · rfl
  · rename_i entry hentry
    exact absurd ⟨entry, hentry⟩ hnone

/-- Of a line that is not taken whole nothing is left, or the name of an entity. -/
theorem Scan.step_of_not_takesWhole {scan : Scan} {text : List Char}
    (hnot : ¬ scan.TakesWhole text) :
    (scan.step text).diagram = scan.diagram ∨
      ∃ name, (scan.step text).diagram = scan.diagram.ensureTable name := by
  rw [Scan.step]
  split
  · rename_i name hblock
    have hnone : ¬ HoldsAttribute text := mt (TakesWhole.attribute name hblock) hnot
    exact Or.inl (addAttribute_of_not_holdsAttribute hnone scan.diagram name)
  · rename_i htop
    split
    · rename_i relationship hread
      exact absurd (.relationship htop relationship hread) hnot
    · rename_i hother
      split
      · rename_i name rest hread
        have hnone : ¬ HoldsAttribute rest :=
          mt (TakesWhole.blockStart htop hother name rest hread) hnot
        exact Or.inr ⟨name, addAttribute_of_not_holdsAttribute hnone _ name⟩
      · exact Or.inl rfl

/-! ## States that agree -/

/-- The place of a line and a scan in front of it agree on whether a block is open. -/
inductive Agree : LinePlace → Scan → Prop
  | topLevel (diagram : Diagram) : Agree .topLevel ⟨diagram, none⟩
  | inBlock (diagram : Diagram) (name : String) : Agree .inBlock ⟨diagram, some name⟩

theorem Agree.inBlock_iff {place : LinePlace} {scan : Scan} (hagree : Agree place scan) :
    place = .inBlock ↔ scan.block.isSome = true := by
  cases hagree <;> simp

theorem judgeBlockText_valid_iff (text : List Char) :
    (judgeBlockText text).1 = true ↔ HoldsAttribute text := by
  simp only [judgeBlockText, isAttributeText, Bool.or_eq_true, List.isEmpty_iff,
    Option.isSome_iff_exists, HoldsAttribute]

/-- A block's line leaves the block open for both or for neither. -/
theorem agree_judgeBlockText (scan : Scan) (name : String) (text : List Char) :
    Agree (judgeBlockText text).2 (scan.inBlock name text) := by
  rw [judgeBlockText, Scan.inBlock]
  cases hcut : cutClosingBrace text with
  | mk body closes =>
    cases closes with
    | true => exact .topLevel _
    | false => exact .inBlock _ name

section Step

variable {place : LinePlace} {scan : Scan} (hagree : Agree place scan) (text : List Char)

include hagree

/-- A line keeps the place and the scan in agreement. -/
theorem Agree.step : Agree (judgeLine place text).2 (scan.step text) := by
  cases hagree with
  | inBlock diagram name => exact agree_judgeBlockText _ name text
  | topLevel diagram =>
    rw [judgeLine, Scan.step]
    cases hread : readRelationship? text with
    | some relationship => exact .topLevel _
    | none =>
      cases hstart : readBlockStart? text with
      | some start => exact agree_judgeBlockText _ start.1 start.2
      | none => exact .topLevel _

/-- In agreement, a line is judged valid exactly when the scan takes it whole. -/
theorem Agree.valid_iff : (judgeLine place text).1 = true ↔ scan.TakesWhole text := by
  cases hagree with
  | inBlock diagram name =>
    rw [judgeLine, judgeBlockText_valid_iff]
    constructor
    · exact .attribute name rfl
    · rintro (⟨htop, -, -⟩ | ⟨htop, -, -, -, -, -⟩ | ⟨-, -, hattribute⟩)
      · simp at htop
      · simp at htop
      · exact hattribute
  | topLevel diagram =>
    rw [judgeLine]
    cases hread : readRelationship? text with
    | some relationship => simpa using .relationship rfl relationship hread
    | none =>
      cases hstart : readBlockStart? text with
      | some start =>
        simp only [Option.isSome_none, Bool.false_eq_true, if_false]
        rw [judgeBlockText_valid_iff]
        constructor
        · exact .blockStart rfl hread start.1 start.2 hstart
        · rintro (⟨-, relationship, hother⟩ | ⟨-, -, name, rest, hother, hattribute⟩ |
            ⟨name, hblock, -⟩)
          · simp [hread] at hother
          · obtain rfl := Option.some.inj (hstart.symm.trans hother)
            exact hattribute
          · simp at hblock
      | none =>
        simp only [Option.isSome_none, Bool.false_eq_true, if_false, false_iff]
        rintro (⟨-, relationship, hother⟩ | ⟨-, -, name, rest, hother, -⟩ | ⟨name, hblock, -⟩)
        · simp [hread] at hother
        · simp [hstart] at hother
        · simp at hblock

end Step

/-- The place after lines. -/
def placeAfter (place : LinePlace) (lines : List Line) : LinePlace :=
  lines.foldl (fun place line => (judgeLine place line.text).2) place

/-- The scan after lines that follow the header. -/
def scanAfter (lines : List Line) : Scan :=
  lines.foldl (fun scan line => scan.step line.text) {}

/-- After any number of lines place and scan agree. -/
theorem agree_after (lines : List Line) : Agree (placeAfter .topLevel lines) (scanAfter lines) := by
  induction lines using List.reverseRecOn with
  | nil => exact .topLevel {}
  | append_singleton before line ih =>
    rw [placeAfter, scanAfter, List.foldl_concat, List.foldl_concat]
    exact ih.step line.text

/-! ## Marked lines -/

theorem lineBlocks_append (place : LinePlace) (before after : List Line) :
    lineBlocks place (before ++ after) =
      lineBlocks place before ++ lineBlocks (placeAfter place before) after := by
  induction before generalizing place with
  | nil => rfl
  | cons line rest ih => exact congrArg _ (ih _)

/-- Lines that count follow each other without overlapping. -/
theorem pairwise_ofRawLines (start : Nat) (raws : List (List Char)) :
    (Line.ofRawLines start raws).Pairwise fun left right => left.stop ≤ right.start := by
  fun_induction Line.ofRawLines start raws with
  | case1 => exact List.Pairwise.nil
  | case2 start raw rest text tail hignored ih => exact ih
  | case3 start raw rest text tail hcounts ih =>
    refine List.pairwise_cons.2 ⟨fun later hlater => ?_, ih⟩
    have hend := (standsAt_trim raw).isBoundary_stop.le
    obtain ⟨offset, hstart, -⟩ := standsAt_of_mem_ofRawLines _ rest later hlater
    rw [hstart, Line.stop]
    simp only [text]
    omega

theorem pairwise_lineBlocks {place : LinePlace} {lines : List Line}
    (hlines : lines.Pairwise fun left right => left.stop ≤ right.start) :
    (lineBlocks place lines).Pairwise fun left right => left.stop ≤ right.start := by
  induction lines generalizing place with
  | nil => exact List.Pairwise.nil
  | cons line rest ih =>
    obtain ⟨hfirst, hrest⟩ := List.pairwise_cons.1 hlines
    refine List.pairwise_cons.2 ⟨fun block hblock => ?_, ih hrest⟩
    obtain ⟨later, hlater, hstart, -⟩ := exists_line_of_mem_lineBlocks hblock
    rw [hstart]
    exact hfirst later hlater

/-- All of a line is marked with the validity. -/
def IsMarked (text : List Char) (line : Line) (isValid : Bool) : Prop :=
  ∀ offset, line.start ≤ offset → offset < line.stop →
    MarkedRange.Marks (highlight text) offset isValid

section Marked

variable {text : List Char} {before after : List Line} {line : Line}
  (hlines : Line.ofText text = before ++ line :: after)

include hlines

theorem start_lt_stop_of_ofText : line.start < line.stop := by
  have hmem : line.text ∈ (Line.ofText text).map Line.text :=
    List.mem_map_of_mem (hlines ▸ List.mem_append_right before List.mem_cons_self)
  rw [map_text_ofText, lineTexts] at hmem
  have hsome : line.text ≠ [] := by
    intro hnil
    simpa [hnil, isIgnored] using (List.mem_filter.1 hmem).2
  have hpos := Text.byteLength_pos hsome
  rw [Line.stop]
  omega

/-- A line is marked as it is judged in its place. -/
theorem isMarked_iff (isValid : Bool) :
    IsMarked text line isValid ↔
      (judgeLine (placeAfter .beforeHeader before) line.text).1 = isValid := by
  have hapart : (lineBlocks .beforeHeader (Line.ofText text)).Pairwise
      fun left right => left.stop ≤ right.start :=
    pairwise_lineBlocks (pairwise_ofRawLines 0 _)
  have hblocks : ∀ block ∈ lineBlocks .beforeHeader (Line.ofText text),
      block.start ≤ block.stop := by
    intro block hblock
    obtain ⟨owner, -, hstart, hstop⟩ := exists_line_of_mem_lineBlocks hblock
    rw [hstart, hstop, Line.stop]
    exact Nat.le_add_right _ _
  have hsorted : (lineBlocks .beforeHeader (Line.ofText text)).Pairwise
      fun left right => left.start ≤ right.start :=
    hapart.imp_of_mem fun hleft _ hle => (hblocks _ hleft).trans hle
  have hown : (⟨line.start, line.stop, (judgeLine (placeAfter .beforeHeader before) line.text).1⟩ :
      MarkedRange) ∈ lineBlocks .beforeHeader (Line.ofText text) := by
    rw [hlines, lineBlocks_append]
    exact List.mem_append_right _ List.mem_cons_self
  have hstop : line.stop ≤ Text.byteLength text :=
    (isBoundary_of_mem_ofText (hlines ▸ List.mem_append_right before List.mem_cons_self)).2.le
  have hmarks (offset : Nat) (hstart : line.start ≤ offset) (hbefore : offset < line.stop) :
      MarkedRange.Marks (highlight text) offset isValid ↔
        (judgeLine (placeAfter .beforeHeader before) line.text).1 = isValid := by
    rw [highlight, MarkedRange.marks_partition _ hblocks hsorted,
      MarkedRange.validityAt_of_mem hapart hown (MarkedRange.holds_iff.2 ⟨hstart, hbefore⟩),
      and_iff_right (hbefore.trans_le hstop)]
  constructor
  · intro hmarked
    have hsome := start_lt_stop_of_ofText hlines
    exact (hmarks line.start le_rfl hsome).1 (hmarked line.start le_rfl hsome)
  · exact fun hjudged offset hstart hbefore => (hmarks offset hstart hbefore).2 hjudged

end Marked

/-- The scan may cut its lines in its own way.  It reads nothing exactly when no line
counts or the first that does is marked invalid.  If it reads a diagram, then in
front of every later line the highlighting is in a block exactly when the scan has
one open, and the line is marked valid when the scan takes it whole, and invalid
when it does not. -/
theorem highlight_lockstep (text : List Char) :
    readBareLines? text = Diagram.ofText? text ∧
    (Diagram.ofText? text = none ↔
      ∀ first ∈ (Line.ofText text).head?, IsMarked text first false) ∧
    ∀ diagram, Diagram.ofText? text = some diagram →
      ∀ first before line after, Line.ofText text = first :: before ++ line :: after →
        (placeAfter .beforeHeader (first :: before) = .inBlock ↔
          (scanAfter before).block.isSome = true) ∧
        (IsMarked text line true ↔ (scanAfter before).TakesWhole line.text) ∧
        (IsMarked text line false ↔ ¬ (scanAfter before).TakesWhole line.text) := by
  have hheader (first : Line) :
      judgeLine .beforeHeader first.text =
        if isHeader first.text then (true, .topLevel) else (false, .beforeHeader) := rfl
  refine ⟨readBareLines?_eq_ofText? text, ?_, ?_⟩
  · rw [Diagram.ofText?]
    cases hlines : Line.ofText text with
    | nil => simp
    | cons first rest =>
      have hfront : Line.ofText text = [] ++ first :: rest := hlines
      have hmarked := isMarked_iff hfront false
      rw [placeAfter, List.foldl_nil, hheader] at hmarked
      simp only [List.head?_cons, Option.mem_some_iff, forall_eq', hmarked]
      split <;> simp
  · intro diagram hread first before line after hlines
    have hfirst : isHeader first.text = true := by
      rw [Diagram.ofText?, hlines] at hread
      by_contra hnot
      simp [hnot] at hread
    have hplace : placeAfter .beforeHeader (first :: before) = placeAfter .topLevel before := by
      rw [placeAfter, List.foldl_cons, hheader, if_pos hfirst, placeAfter]
    have hagree := agree_after before
    rw [isMarked_iff hlines, isMarked_iff hlines, hplace, ← Bool.not_eq_true,
      hagree.valid_iff line.text]
    exact ⟨hagree.inBlock_iff, Iff.rfl, Iff.rfl⟩

end Crowfoot.Mermaid
