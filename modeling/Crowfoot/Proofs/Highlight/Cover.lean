import Crowfoot.Highlight.Range
import Crowfoot.Proofs.Text.Boundary
import Mathlib.Data.List.Chain

/-!
# Covers

Highlighting covers a text: its ranges follow each other without a gap, none of
them is empty, and no two neighbours have the same validity.  The cover that is
made of blocks adds no offset of its own, and it marks each offset as the first
block does that holds it.
-/

namespace Crowfoot.MarkedRange

/-- Non-empty ranges that follow each other without a gap, from an offset to another. -/
def Tiles : Nat → Nat → List MarkedRange → Prop
  | start, stop, [] => start = stop
  | start, stop, range :: rest =>
    range.start = start ∧ range.start < range.stop ∧ Tiles range.stop stop rest

/-- Neighbours differ in validity. -/
def Alternate (ranges : List MarkedRange) : Prop :=
  ranges.IsChain fun left right => left.isValid ≠ right.isValid

/-- Some range of the given validity holds the offset. -/
def Marks (ranges : List MarkedRange) (offset : Nat) (isValid : Bool) : Prop :=
  ∃ range ∈ ranges, range.isValid = isValid ∧ range.start ≤ offset ∧ offset < range.stop

/-- The range holds the offset. -/
def holds (range : MarkedRange) (offset : Nat) : Bool :=
  range.start ≤ offset && offset < range.stop

theorem holds_iff {range : MarkedRange} {offset : Nat} :
    range.holds offset = true ↔ range.start ≤ offset ∧ offset < range.stop := by
  simp [holds]

/-- The validity of the first block that holds the offset; without one it is valid. -/
def validityAt (blocks : List MarkedRange) (offset : Nat) : Bool :=
  ((blocks.find? (·.holds offset)).map isValid).getD true

theorem validityAt_of_lt {blocks : List MarkedRange} {offset : Nat}
    (hbefore : ∀ block ∈ blocks, offset < block.start) :
    validityAt blocks offset = true := by
  have hnone : blocks.find? (·.holds offset) = none := by
    rw [List.find?_eq_none]
    intro block hmem hholds
    have hlt := hbefore block hmem
    have hle := (holds_iff.1 hholds).1
    omega
  rw [validityAt, hnone, Option.map_none, Option.getD_none]

theorem validityAt_cons_of_holds {block : MarkedRange} {offset : Nat}
    (blocks : List MarkedRange) (hholds : block.holds offset = true) :
    validityAt (block :: blocks) offset = block.isValid := by
  rw [validityAt, List.find?_cons, hholds, Option.map_some, Option.getD_some]

theorem validityAt_cons_of_not_holds {block : MarkedRange} {offset : Nat}
    (blocks : List MarkedRange) (hholds : ¬ block.holds offset = true) :
    validityAt (block :: blocks) offset = validityAt blocks offset := by
  rw [validityAt, List.find?_cons, (Bool.not_eq_true _).mp hholds, validityAt]

/-- Where blocks do not overlap, the one that holds an offset decides. -/
theorem validityAt_of_mem {blocks : List MarkedRange} {block : MarkedRange} {offset : Nat}
    (hapart : blocks.Pairwise fun left right => left.stop ≤ right.start) (hmem : block ∈ blocks)
    (hholds : block.holds offset = true) : validityAt blocks offset = block.isValid := by
  induction blocks with
  | nil => simp at hmem
  | cons first rest ih =>
    obtain ⟨hfirst, hmore⟩ := List.pairwise_cons.1 hapart
    rcases List.mem_cons.1 hmem with rfl | hlater
    · exact validityAt_cons_of_holds rest hholds
    · have hnot : ¬ first.holds offset = true := by
        rw [holds_iff] at hholds ⊢
        have hle := hfirst block hlater
        omega
      rw [validityAt_cons_of_not_holds rest hnot, ih hmore hlater]

/-- Where blocks do not overlap, an offset is invalid exactly in the invalid ones. -/
theorem validityAt_eq_false_iff {blocks : List MarkedRange} {offset : Nat}
    (hapart : blocks.Pairwise fun left right => left.stop ≤ right.start) :
    validityAt blocks offset = false ↔ Marks blocks offset false := by
  induction blocks with
  | nil => simp [validityAt, Marks]
  | cons block rest ih =>
    obtain ⟨hfirst, hmore⟩ := List.pairwise_cons.1 hapart
    rw [Marks, List.exists_mem_cons_iff, ← Marks, ← ih hmore, ← holds_iff]
    by_cases hholds : block.holds offset = true
    · have hlater : validityAt rest offset = true := validityAt_of_lt fun later hmem => by
        have hle := hfirst later hmem
        have hlt := (holds_iff.1 hholds).2
        omega
      rw [validityAt_cons_of_holds rest hholds, hlater]
      simp [hholds]
    · rw [validityAt_cons_of_not_holds rest hholds]
      simp [hholds]

theorem Tiles.concat {start : Nat} {ranges : List MarkedRange} {last : MarkedRange}
    (htiles : Tiles start last.start ranges) (hlast : last.start < last.stop) :
    Tiles start last.stop (ranges ++ [last]) := by
  induction ranges generalizing start with
  | nil => exact ⟨htiles.symm, hlast, rfl⟩
  | cons first rest ih => exact ⟨htiles.1, htiles.2.1, ih htiles.2.2⟩

theorem Tiles.start_le_stop {start stop : Nat} {ranges : List MarkedRange}
    (htiles : Tiles start stop ranges) : start ≤ stop := by
  induction ranges generalizing start with
  | nil => exact Nat.le_of_eq htiles
  | cons first rest ih =>
    obtain ⟨rfl, hsome, hrest⟩ := htiles
    exact Nat.le_trans (Nat.le_of_lt hsome) (ih hrest)

/-- Ranges tile nothing exactly when there are none. -/
theorem Tiles.eq_nil_iff {start stop : Nat} {ranges : List MarkedRange}
    (htiles : Tiles start stop ranges) : ranges = [] ↔ start = stop := by
  constructor
  · rintro rfl
    exact htiles
  · cases ranges with
    | nil => exact fun _ => rfl
    | cons first rest =>
      obtain ⟨rfl, hsome, hrest⟩ := htiles
      have hle := hrest.start_le_stop
      omega

theorem Tiles.start_lt_stop {start stop : Nat} {ranges : List MarkedRange}
    (htiles : Tiles start stop ranges) : ∀ range ∈ ranges, range.start < range.stop := by
  induction ranges generalizing start with
  | nil => simp
  | cons first rest ih => exact List.forall_mem_cons.2 ⟨htiles.2.1, ih htiles.2.2⟩

/-- Ranges of one validity that alternate are one range. -/
theorem Tiles.eq_singleton {start stop : Nat} {ranges : List MarkedRange} {isValid : Bool}
    (htiles : Tiles start stop ranges) (halternate : Alternate ranges) (hsome : start ≠ stop)
    (hvalid : ∀ range ∈ ranges, range.isValid = isValid) : ranges = [⟨start, stop, isValid⟩] := by
  match ranges with
  | [] => exact absurd htiles hsome
  | [⟨_, _, _⟩] =>
    obtain ⟨rfl, -, rfl⟩ := htiles
    rw [← hvalid _ List.mem_cons_self]
  | first :: second :: rest =>
    have hdiffer := (List.isChain_cons_cons.1 halternate).1
    rw [hvalid first (by simp), hvalid second (by simp)] at hdiffer
    exact absurd rfl hdiffer

/-- A change of offsets that keeps the order of the ends of all ranges takes tiles to tiles. -/
theorem Tiles.map {start stop : Nat} {ranges : List MarkedRange} (shift : Nat → Nat)
    (htiles : Tiles start stop ranges)
    (hshift : ∀ range ∈ ranges, range.start < range.stop → shift range.start < shift range.stop) :
    Tiles (shift start) (shift stop)
      (ranges.map fun range => { range with start := shift range.start, stop := shift range.stop }) := by
  induction ranges generalizing start with
  | nil => exact congrArg shift htiles
  | cons first rest ih =>
    obtain ⟨rfl, hsome, hrest⟩ := htiles
    obtain ⟨hfirst, hmore⟩ := List.forall_mem_cons.1 hshift
    exact ⟨rfl, hfirst hsome, ih hrest hmore⟩

/-! ## Ranges given last first -/

/-- Ranges, last first, that cover everything in front of an offset. -/
def CoversBack : Nat → List MarkedRange → Prop
  | covered, [] => covered = 0
  | covered, last :: earlier =>
    last.stop = covered ∧ last.start < last.stop ∧
      (∀ before ∈ earlier.head?, before.isValid ≠ last.isValid) ∧ CoversBack last.start earlier

theorem coversBack_nil : CoversBack 0 [] := rfl

theorem CoversBack.tiles {covered : Nat} {reversed : List MarkedRange}
    (hcovers : CoversBack covered reversed) : Tiles 0 covered reversed.reverse := by
  induction reversed generalizing covered with
  | nil => exact hcovers.symm
  | cons last earlier ih =>
    obtain ⟨rfl, hsome, -, hearlier⟩ := hcovers
    rw [List.reverse_cons]
    exact (ih hearlier).concat hsome

theorem CoversBack.alternate {covered : Nat} {reversed : List MarkedRange}
    (hcovers : CoversBack covered reversed) : Alternate reversed.reverse := by
  rw [Alternate, List.isChain_reverse]
  induction reversed generalizing covered with
  | nil => exact List.IsChain.nil
  | cons last earlier ih =>
    obtain ⟨-, -, hbefore, hearlier⟩ := hcovers
    exact List.isChain_cons.2 ⟨hbefore, ih hearlier⟩

section Append

variable {reversed : List MarkedRange} {range : MarkedRange}

/-- A range is added in one of three ways. -/
theorem append_cases (reversed : List MarkedRange) (range : MarkedRange) :
    (range.stop ≤ range.start ∧ append reversed range = reversed) ∨
    (range.start < range.stop ∧ ∃ last earlier, reversed = last :: earlier ∧
      last.isValid = range.isValid ∧ last.stop = range.start ∧
      append reversed range = { last with stop := range.stop } :: earlier) ∨
    (range.start < range.stop ∧
      (∀ last ∈ reversed.head?, ¬ (last.isValid = range.isValid ∧ last.stop = range.start)) ∧
      append reversed range = range :: reversed) := by
  by_cases hempty : range.stop ≤ range.start
  · exact Or.inl ⟨hempty, if_pos hempty⟩
  · have hlt : range.start < range.stop := Nat.lt_of_not_le hempty
    cases reversed with
    | nil => exact Or.inr (Or.inr ⟨hlt, by simp, if_neg hempty⟩)
    | cons last earlier =>
      by_cases hmerge : last.isValid = range.isValid ∧ last.stop = range.start
      · exact Or.inr (Or.inl ⟨hlt, last, earlier, rfl, hmerge.1, hmerge.2,
          (if_neg hempty).trans (if_pos hmerge)⟩)
      · refine Or.inr (Or.inr ⟨hlt, ?_, (if_neg hempty).trans (if_neg hmerge)⟩)
        rintro _ ⟨⟩
        exact hmerge

/-- A range that starts where the others end goes on covering. -/
theorem CoversBack.append (range : MarkedRange) (hcovers : CoversBack range.start reversed) :
    CoversBack (max range.start range.stop) (append reversed range) := by
  rcases append_cases reversed range with
    ⟨hempty, heq⟩ | ⟨hlt, last, earlier, rfl, hvalid, hstop, heq⟩ | ⟨hlt, hapart, heq⟩
  · rw [heq, Nat.max_eq_left hempty]
    exact hcovers
  · obtain ⟨-, hsome, hbefore, hearlier⟩ := hcovers
    rw [heq, Nat.max_eq_right (Nat.le_of_lt hlt)]
    exact ⟨rfl, by show last.start < range.stop; omega, hbefore, hearlier⟩
  · rw [heq, Nat.max_eq_right (Nat.le_of_lt hlt)]
    refine ⟨rfl, hlt, ?_, hcovers⟩
    intro last hlast hsame
    cases reversed with
    | nil => simp at hlast
    | cons first earlier =>
      obtain rfl := Option.some.inj hlast
      exact hapart first rfl ⟨hsame, hcovers.1⟩

/-- What is added marks its own offsets and nothing else. -/
theorem CoversBack.marks_append (hcovers : CoversBack range.start reversed) (offset : Nat)
    (isValid : Bool) :
    Marks (MarkedRange.append reversed range) offset isValid ↔
      Marks reversed offset isValid ∨
        range.isValid = isValid ∧ range.start ≤ offset ∧ offset < range.stop := by
  rcases append_cases reversed range with
    ⟨hempty, heq⟩ | ⟨hlt, last, earlier, rfl, hvalid, hstop, heq⟩ | ⟨hlt, hapart, heq⟩
  · rw [heq]
    constructor
    · exact Or.inl
    · rintro (hold | ⟨-, hstart, hstop⟩)
      · exact hold
      · omega
  · -- the last range grows: it holds what it held and what is added
    obtain ⟨-, hsome, -, -⟩ := hcovers
    have hgrown : (last.start ≤ offset ∧ offset < range.stop) ↔
        (last.start ≤ offset ∧ offset < last.stop) ∨ range.start ≤ offset ∧ offset < range.stop := by
      omega
    rw [heq]
    simp only [Marks, List.exists_mem_cons_iff, hgrown, hvalid, and_or_left]
    exact or_right_comm
  · rw [heq]
    simp only [Marks, List.exists_mem_cons_iff]
    exact or_comm

/-- An added range brings no ends but its own. -/
theorem forall_mem_append {P : Nat → Prop}
    (hreversed : ∀ old ∈ reversed, P old.start ∧ P old.stop) (hstart : P range.start)
    (hstop : P range.stop) : ∀ new ∈ append reversed range, P new.start ∧ P new.stop := by
  rcases append_cases reversed range with
    ⟨-, heq⟩ | ⟨-, last, earlier, rfl, -, -, heq⟩ | ⟨-, -, heq⟩
  · rw [heq]
    exact hreversed
  · obtain ⟨hlast, hearlier⟩ := List.forall_mem_cons.1 hreversed
    rw [heq]
    exact List.forall_mem_cons.2 ⟨⟨hlast.1, hstop⟩, hearlier⟩
  · rw [heq]
    exact List.forall_mem_cons.2 ⟨⟨hstart, hstop⟩, hreversed⟩

end Append

/-! ## Blocks -/

section Partition

variable {length covered : Nat} {reversed blocks : List MarkedRange}

/-- The ranges that one block adds: a valid one up to its start, and its own. -/
def addBlock (length : Nat) (reversed : List MarkedRange) (covered : Nat) (block : MarkedRange) :
    List MarkedRange :=
  let start := min (max block.start covered) length
  append (append reversed ⟨covered, start, true⟩) ⟨start, min block.stop length, block.isValid⟩

theorem partitionFrom_cons (block : MarkedRange) :
    partitionFrom length reversed covered (block :: blocks) =
      partitionFrom length (addBlock length reversed covered block)
        (max covered (min block.stop length)) blocks := rfl

/-- A valid range fills what is not covered in front of a block. -/
theorem CoversBack.appendGap (hcovers : CoversBack covered reversed) (hcovered : covered ≤ length)
    (start : Nat) :
    CoversBack (min (max start covered) length)
      (MarkedRange.append reversed ⟨covered, min (max start covered) length, true⟩) := by
  have hgap := hcovers.append ⟨covered, min (max start covered) length, true⟩
  have hstart : max covered (min (max start covered) length) =
      min (max start covered) length := by omega
  rwa [hstart] at hgap

/-- A block goes on covering, up to its end if that is not covered yet. -/
theorem CoversBack.addBlock {block : MarkedRange} (hcovers : CoversBack covered reversed)
    (hcovered : covered ≤ length) (hblock : block.start ≤ block.stop) :
    CoversBack (max covered (min block.stop length))
      (MarkedRange.addBlock length reversed covered block) := by
  have hall := (hcovers.appendGap hcovered block.start).append
    ⟨min (max block.start covered) length, min block.stop length, block.isValid⟩
  have hstop : max (min (max block.start covered) length) (min block.stop length) =
      max covered (min block.stop length) := by omega
  rwa [hstop] at hall

theorem partitionFrom_covers (hcovers : CoversBack covered reversed) (hcovered : covered ≤ length)
    (hblocks : ∀ block ∈ blocks, block.start ≤ block.stop) :
    Tiles 0 length (partitionFrom length reversed covered blocks) ∧
      Alternate (partitionFrom length reversed covered blocks) := by
  induction blocks generalizing covered reversed with
  | nil =>
    have hall := hcovers.append ⟨covered, length, true⟩
    rw [Nat.max_eq_right hcovered] at hall
    exact ⟨hall.tiles, hall.alternate⟩
  | cons block rest ih =>
    obtain ⟨hblock, hrest⟩ := List.forall_mem_cons.1 hblocks
    rw [partitionFrom_cons]
    exact ih (hcovers.addBlock hcovered hblock) (by omega) hrest

/-- Blocks in any order, as long as none ends before it starts, make a cover. -/
theorem partition_covers (length : Nat) (hblocks : ∀ block ∈ blocks, block.start ≤ block.stop) :
    Tiles 0 length (partition length blocks) ∧ Alternate (partition length blocks) :=
  partitionFrom_covers coversBack_nil (Nat.zero_le length) hblocks

theorem min_cases {P : Nat → Prop} {left right : Nat} (hleft : P left) (hright : P right) :
    P (min left right) := by
  rcases Nat.le_total left right with hle | hle
  · rwa [Nat.min_eq_left hle]
  · rwa [Nat.min_eq_right hle]

theorem max_cases {P : Nat → Prop} {left right : Nat} (hleft : P left) (hright : P right) :
    P (max left right) := by
  rcases Nat.le_total left right with hle | hle
  · rwa [Nat.max_eq_right hle]
  · rwa [Nat.max_eq_left hle]

theorem forall_mem_partitionFrom {P : Nat → Prop} (hlength : P length) (hcovered : P covered)
    (hreversed : ∀ range ∈ reversed, P range.start ∧ P range.stop)
    (hblocks : ∀ block ∈ blocks, P block.start ∧ P block.stop) :
    ∀ range ∈ partitionFrom length reversed covered blocks, P range.start ∧ P range.stop := by
  induction blocks generalizing covered reversed with
  | nil =>
    intro range hmem
    exact forall_mem_append hreversed hcovered hlength range (List.mem_reverse.1 hmem)
  | cons block rest ih =>
    obtain ⟨⟨hstart, hstop⟩, hrest⟩ := List.forall_mem_cons.1 hblocks
    have hclipped := min_cases hstop hlength
    have hbegin := min_cases (max_cases hstart hcovered) hlength
    rw [partitionFrom_cons]
    exact ih (max_cases hcovered hclipped)
      (forall_mem_append (forall_mem_append hreversed hcovered hbegin) hbegin hclipped) hrest

/-- The ranges of a cover end where blocks end, or where the text does. -/
theorem forall_mem_partition {P : Nat → Prop} (hzero : P 0) (hlength : P length)
    (hblocks : ∀ block ∈ blocks, P block.start ∧ P block.stop) :
    ∀ range ∈ partition length blocks, P range.start ∧ P range.stop :=
  forall_mem_partitionFrom hlength hzero (by simp) hblocks

theorem CoversBack.marks_addBlock {block : MarkedRange} (hcovers : CoversBack covered reversed)
    (hcovered : covered ≤ length) (offset : Nat) (isValid : Bool) :
    Marks (MarkedRange.addBlock length reversed covered block) offset isValid ↔
      Marks reversed offset isValid ∨
        (true = isValid ∧ covered ≤ offset ∧ offset < min (max block.start covered) length) ∨
        (block.isValid = isValid ∧ min (max block.start covered) length ≤ offset ∧
          offset < min block.stop length) := by
  rw [MarkedRange.addBlock, (hcovers.appendGap hcovered block.start).marks_append, CoversBack.marks_append hcovers, or_assoc]

theorem marks_partitionFrom (hcovers : CoversBack covered reversed) (hcovered : covered ≤ length)
    (hblocks : ∀ block ∈ blocks, block.start ≤ block.stop)
    (hsorted : blocks.Pairwise fun left right => left.start ≤ right.start) (offset : Nat)
    (isValid : Bool) :
    Marks (partitionFrom length reversed covered blocks) offset isValid ↔
      Marks reversed offset isValid ∨
        covered ≤ offset ∧ offset < length ∧ validityAt blocks offset = isValid := by
  induction blocks generalizing covered reversed with
  | nil =>
    have hreverse (ranges : List MarkedRange) :
        Marks ranges.reverse offset isValid ↔ Marks ranges offset isValid := by
      simp only [Marks, List.mem_reverse]
    have hnone : validityAt [] offset = true := rfl
    rw [partitionFrom, hreverse, CoversBack.marks_append hcovers, hnone]
    tauto
  | cons block rest ih =>
    obtain ⟨hblock, hrest⟩ := List.forall_mem_cons.1 hblocks
    obtain ⟨hfirst, hmore⟩ := List.pairwise_cons.1 hsorted
    rw [partitionFrom_cons, ih (hcovers.addBlock hcovered hblock) (by omega) hrest hmore,
      hcovers.marks_addBlock hcovered, or_assoc]
    apply or_congr_right
    by_cases hholds : block.holds offset = true
    · obtain ⟨hstart, hstop⟩ := holds_iff.1 hholds
      rw [validityAt_cons_of_holds rest hholds]
      grind
    · rw [validityAt_cons_of_not_holds rest hholds]
      rw [holds_iff, not_and, Nat.not_lt] at hholds
      by_cases hbefore : offset < block.start
      · -- no later block starts in front of this one
        have hlater : validityAt rest offset = true := validityAt_of_lt fun later hmem => by
          have hle := hfirst later hmem
          omega
        rw [hlater]
        grind
      · have hpast := hholds (Nat.le_of_not_lt hbefore)
        grind

/-- A cover by blocks in the order of their starts marks every offset as the first
block does that holds it, and as valid where none does. -/
theorem marks_partition (length : Nat) (hblocks : ∀ block ∈ blocks, block.start ≤ block.stop)
    (hsorted : blocks.Pairwise fun left right => left.start ≤ right.start) (offset : Nat)
    (isValid : Bool) :
    Marks (partition length blocks) offset isValid ↔
      offset < length ∧ validityAt blocks offset = isValid := by
  rw [partition, marks_partitionFrom coversBack_nil (Nat.zero_le length) hblocks hsorted]
  simp [Marks]

/-- Blocks that do not overlap make one valid range exactly when all of them are valid. -/
theorem partition_eq_valid_iff (hlength : 0 < length)
    (hblocks : ∀ block ∈ blocks, block.start < block.stop ∧ block.stop ≤ length)
    (hapart : blocks.Pairwise fun left right => left.stop ≤ right.start) :
    partition length blocks = [⟨0, length, true⟩] ↔ ∀ block ∈ blocks, block.isValid = true := by
  have hordered : ∀ block ∈ blocks, block.start ≤ block.stop :=
    fun block hmem => Nat.le_of_lt (hblocks block hmem).1
  have hsorted : blocks.Pairwise fun left right => left.start ≤ right.start :=
    hapart.imp_of_mem fun hleft _ hle => (hordered _ hleft).trans hle
  have hmarks := marks_partition length hordered hsorted
  constructor
  · intro hwhole block hmem
    rw [← Bool.not_eq_false]
    intro hinvalid
    obtain ⟨hsome, hstop⟩ := hblocks block hmem
    have hmarked : Marks (partition length blocks) block.start false := by
      refine (hmarks block.start false).2 ⟨by omega, ?_⟩
      rw [validityAt_of_mem hapart hmem (holds_iff.2 ⟨le_rfl, hsome⟩), hinvalid]
    rw [hwhole] at hmarked
    obtain ⟨range, hrange, hfalse, -⟩ := hmarked
    rw [List.mem_singleton.1 hrange] at hfalse
    cases hfalse
  · intro hvalid
    obtain ⟨htiles, halternate⟩ := partition_covers length hordered
    refine htiles.eq_singleton halternate (by omega) fun range hrange => ?_
    rw [← Bool.not_eq_false]
    intro hinvalid
    have hmarked := (hmarks range.start false).1
      ⟨range, hrange, hinvalid, le_rfl, htiles.start_lt_stop range hrange⟩
    obtain ⟨block, hblock, hfalse, -⟩ := (validityAt_eq_false_iff hapart).1 hmarked.2
    rw [hvalid block hblock] at hfalse
    cases hfalse

end Partition

end Crowfoot.MarkedRange
