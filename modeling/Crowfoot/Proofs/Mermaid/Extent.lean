import Crowfoot.Mermaid.Highlight
import Crowfoot.Proofs.Highlight.Cover
import Crowfoot.Proofs.Text.Blanks

/-!
# Extents of lines

Every line of a diagram that counts stands in the text where it says, without the
blanks around it, so that the blocks of a diagram start and end between
characters.
-/

namespace Crowfoot.Mermaid

theorem standsAt_trim (raw : List Char) :
    Text.StandsAt raw (Text.trim raw) (Text.byteLength (raw.takeWhile Text.isBlank)) := by
  obtain ⟨back, hraw, -⟩ := Text.exists_trim_append raw
  exact ⟨_, back, hraw, rfl⟩

/-- Every line stands at the offset it carries. -/
theorem standsAt_of_mem_ofRawLines (start : Nat) (raws : List (List Char)) :
    ∀ line ∈ Line.ofRawLines start raws,
      ∃ offset, line.start = start + offset ∧ Text.StandsAt raws.flatten line.text offset := by
  fun_induction Line.ofRawLines start raws with
  | case1 => simp
  | case2 start raw rest text tail hignored ih =>
    intro line hmem
    obtain ⟨offset, hstart, hstands⟩ := ih line hmem
    refine ⟨Text.byteLength raw + offset, ?_, hstands.append_left raw⟩
    rw [hstart, Nat.add_assoc]
  | case3 start raw rest text tail hcounts ih =>
    intro line hmem
    rcases List.mem_cons.1 hmem with rfl | hlater
    · exact ⟨_, rfl, (standsAt_trim raw).append_right rest.flatten⟩
    · obtain ⟨offset, hstart, hstands⟩ := ih line hlater
      refine ⟨Text.byteLength raw + offset, ?_, hstands.append_left raw⟩
      rw [hstart, Nat.add_assoc]

theorem isBoundary_of_mem_ofText {text : List Char} {line : Line} (hmem : line ∈ Line.ofText text) :
    Text.IsBoundary text line.start ∧ Text.IsBoundary text line.stop := by
  obtain ⟨offset, hstart, hstands⟩ := standsAt_of_mem_ofRawLines 0 (Text.linesOf text) line hmem
  rw [Nat.zero_add] at hstart
  rw [Text.flatten_linesOf] at hstands
  rw [Line.stop, hstart]
  exact ⟨hstands.isBoundary_start, hstands.isBoundary_stop⟩

/-- Every block is that of a line. -/
theorem exists_line_of_mem_lineBlocks {place : LinePlace} {lines : List Line} {block : MarkedRange}
    (hmem : block ∈ lineBlocks place lines) :
    ∃ line ∈ lines, block.start = line.start ∧ block.stop = line.stop := by
  induction lines generalizing place with
  | nil => simp [lineBlocks] at hmem
  | cons line rest ih =>
    rcases List.mem_cons.1 hmem with rfl | hlater
    · exact ⟨line, List.mem_cons_self, rfl, rfl⟩
    · obtain ⟨later, hrest, hsame⟩ := ih hlater
      exact ⟨later, List.mem_cons_of_mem line hrest, hsame⟩

end Crowfoot.Mermaid
