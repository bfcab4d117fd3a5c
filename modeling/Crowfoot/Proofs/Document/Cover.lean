import Crowfoot.Document
import Crowfoot.Proofs.Mermaid.Extent
import Crowfoot.Proofs.Sql.Extent

/-!
# Highlighted documents

Whatever a text is and whatever format it is taken for, highlighting covers all of
it, and every range starts and ends between characters.  So an editor that counts
in UTF-16 code units gets a cover too.
-/

namespace Crowfoot

/-- Ranges of a text that follow each other from its start to its end, differ from
their neighbours and split no character. -/
structure Covers (text : List Char) (ranges : List MarkedRange) : Prop where
  tiles : MarkedRange.Tiles 0 (Text.byteLength text) ranges
  alternate : MarkedRange.Alternate ranges
  boundaries : ∀ range ∈ ranges,
    Text.IsBoundary text range.start ∧ Text.IsBoundary text range.stop

/-- Blocks between characters of a text make a cover of it. -/
theorem covers_partition {text : List Char} {blocks : List MarkedRange}
    (hblocks : ∀ block ∈ blocks, block.start ≤ block.stop)
    (hboundaries : ∀ block ∈ blocks,
      Text.IsBoundary text block.start ∧ Text.IsBoundary text block.stop) :
    Covers text (MarkedRange.partition (Text.byteLength text) blocks) where
  tiles := (MarkedRange.partition_covers _ hblocks).1
  alternate := (MarkedRange.partition_covers _ hblocks).2
  boundaries := MarkedRange.forall_mem_partition (Text.isBoundary_zero text)
    (Text.isBoundary_byteLength text) hboundaries

theorem Sql.covers_highlight (text : List Char) : Covers text (Sql.highlight text) :=
  covers_partition (fun _ => start_le_stop_of_mem_statementBlocks)
    fun _ => isBoundary_of_mem_statementBlocks

theorem Mermaid.covers_highlight (text : List Char) : Covers text (Mermaid.highlight text) := by
  apply covers_partition
  · intro block hmem
    obtain ⟨line, -, hstart, hstop⟩ := exists_line_of_mem_lineBlocks hmem
    rw [hstart, hstop, Line.stop]
    exact Nat.le_add_right _ _
  · intro block hmem
    obtain ⟨line, hline, hstart, hstop⟩ := exists_line_of_mem_lineBlocks hmem
    rw [hstart, hstop]
    exact isBoundary_of_mem_ofText hline

section Covers

variable {text : List Char} {ranges : List MarkedRange}

theorem Covers.eq_nil_iff (hcovers : Covers text ranges) : ranges = [] ↔ text = [] := by
  rw [hcovers.tiles.eq_nil_iff]
  constructor
  · intro hzero
    by_contra hsome
    have hpos := Text.byteLength_pos hsome
    omega
  · rintro rfl
    rfl

/-- In code units the ranges follow each other as well. -/
theorem Covers.tiles_toUnits (hcovers : Covers text ranges) :
    MarkedRange.Tiles 0 (Text.unitLength text) (ranges.map (MarkedRange.toUnits text)) := by
  have hunits := hcovers.tiles.map (Text.unitOffset text) fun range hmem hsome =>
    (hcovers.boundaries range hmem).1.unitOffset_lt (hcovers.boundaries range hmem).2 hsome
  rwa [Text.unitOffset_zero, Text.unitOffset_byteLength] at hunits

end Covers

namespace Document

/-- Highlighting covers the text, in bytes and in UTF-16 code units alike. -/
theorem highlight_covers (format : Option Format) (text : String) :
    Covers text.toList (highlight format text) ∧
      (highlight format text = [] ↔ text = "") ∧
      MarkedRange.Tiles 0 (Text.unitLength text.toList)
        ((highlight format text).map (MarkedRange.toUnits text.toList)) ∧
      ((highlight format text).map (MarkedRange.toUnits text.toList)).map MarkedRange.isValid =
        (highlight format text).map MarkedRange.isValid := by
  have hcovers : Covers text.toList (highlight format text) := by
    rw [highlight]
    split
    · exact Sql.covers_highlight text.toList
    · exact Mermaid.covers_highlight text.toList
  refine ⟨hcovers, ?_, hcovers.tiles_toUnits, ?_⟩
  · rw [hcovers.eq_nil_iff, String.toList_eq_nil_iff]
  · rw [List.map_map]
    rfl

/-- A literal that is not closed, and characters of two and of four bytes. -/
example : (highlight (some .sql) "é; '😀").map (MarkedRange.toUnits "é; '😀".toList) =
    [⟨0, 2, false⟩, ⟨2, 3, true⟩, ⟨3, 6, false⟩] := by
  decide +kernel

end Document

end Crowfoot
