import Crowfoot.Proofs.Highlight.Cover

/-!
# Runs of a rule

A rule that says of every offset whether it is valid is written down run by run, one
range for each stretch of offsets that it marks alike.  There is only one way to do
so.  The cover that blocks make in the order of their starts writes down the rule of
the blocks: an offset is as valid as the first block that holds it.
-/

namespace Crowfoot.MarkedRange

/-- Ranges over the offsets from one to another, each going on as long as the rule says the
same. -/
structure AreRuns (rule : Nat → Bool) (start stop : Nat) (ranges : List MarkedRange) : Prop where
  tiles : Tiles start stop ranges
  alternate : Alternate ranges
  follows : ∀ range ∈ ranges, ∀ offset, range.start ≤ offset → offset < range.stop →
    range.isValid = rule offset

section Runs

variable {rule : Nat → Bool} {start stop : Nat} {first other : MarkedRange}
  {rest others ranges : List MarkedRange}

theorem AreRuns.tail (hruns : AreRuns rule start stop (first :: rest)) :
    AreRuns rule first.stop stop rest :=
  ⟨hruns.tiles.2.2, hruns.alternate.tail, fun range hmem =>
    hruns.follows range (List.mem_cons_of_mem first hmem)⟩

/-- The first run is marked as the first offset is. -/
theorem AreRuns.first_isValid (hruns : AreRuns rule start stop (first :: rest)) :
    first.isValid = rule start := by
  obtain ⟨rfl, hsome, -⟩ := hruns.tiles
  exact hruns.follows first List.mem_cons_self first.start le_rfl hsome

/-- No first range that the rule marks alike goes on behind the first run. -/
theorem AreRuns.stop_le_stop (hruns : AreRuns rule start stop (first :: rest))
    (hothers : AreRuns rule start stop (other :: others)) : other.stop ≤ first.stop := by
  by_contra hlonger
  obtain ⟨hfirst, hsome, hrest⟩ := hruns.tiles
  obtain ⟨hother, -, hmore⟩ := hothers.tiles
  have hlast := hmore.start_le_stop
  cases rest with
  | nil =>
    have hend : first.stop = stop := hrest
    omega
  | cons second rest =>
    -- the offset behind the first run is in the other range, and yet marked differently
    have hsecond : second.isValid = rule first.stop := hruns.tail.first_isValid
    have hsame : other.isValid = rule first.stop :=
      hothers.follows other List.mem_cons_self first.stop (by omega) (by omega)
    have hdiffer : first.isValid ≠ second.isValid := (List.isChain_cons_cons.1 hruns.alternate).1
    rw [hsecond, ← hsame, hothers.first_isValid, hruns.first_isValid] at hdiffer
    exact hdiffer rfl

/-- A rule is written down run by run in one way only. -/
theorem AreRuns.eq (hruns : AreRuns rule start stop ranges)
    (hothers : AreRuns rule start stop others) : ranges = others := by
  induction ranges generalizing start others with
  | nil => exact (hothers.tiles.eq_nil_iff.2 hruns.tiles).symm
  | cons first rest ih =>
    cases others with
    | nil => exact hruns.tiles.eq_nil_iff.2 hothers.tiles
    | cons other others =>
      have hstop : other.stop = first.stop :=
        le_antisymm (hruns.stop_le_stop hothers) (hothers.stop_le_stop hruns)
      have hstart : other.start = first.start := hothers.tiles.1.trans hruns.tiles.1.symm
      have hvalid : other.isValid = first.isValid :=
        hothers.first_isValid.trans hruns.first_isValid.symm
      have hsame : first = other := by
        obtain ⟨_, _, _⟩ := other
        simp_all
      rw [hsame, ih hruns.tail (hstop ▸ hothers.tail)]

end Runs

/-- Blocks in the order of their starts make the cover that writes down run by run how they
mark the offsets below the length: as the first block does that holds the offset, and as valid
where none does. -/
theorem areRuns_iff_eq_partition (length : Nat) {blocks ranges : List MarkedRange}
    (hblocks : ∀ block ∈ blocks, block.start ≤ block.stop)
    (hsorted : blocks.Pairwise fun left right => left.start ≤ right.start) :
    AreRuns (validityAt blocks) 0 length ranges ↔ ranges = partition length blocks := by
  obtain ⟨htiles, halternate⟩ := partition_covers length hblocks
  have hruns : AreRuns (validityAt blocks) 0 length (partition length blocks) := by
    refine ⟨htiles, halternate, fun range hmem offset hstart hstop => ?_⟩
    have hmarks := marks_partition length hblocks hsorted offset range.isValid
    exact (hmarks.1 ⟨range, hmem, rfl, hstart, hstop⟩).2.symm
  constructor
  · intro hranges
    exact hranges.eq hruns
  · rintro rfl
    exact hruns

/-- Blocks that overlap, one inside another, an empty one and one that reaches past the end. -/
def crowdedBlocks : List MarkedRange :=
  [⟨2, 6, false⟩, ⟨3, 4, true⟩, ⟨5, 9, true⟩, ⟨7, 7, false⟩, ⟨8, 20, false⟩]

theorem areRuns_crowdedBlocks :
    (∀ block ∈ crowdedBlocks, block.start ≤ block.stop) ∧
      (crowdedBlocks.Pairwise fun left right => left.start ≤ right.start) ∧
      AreRuns (validityAt crowdedBlocks) 0 12
        [⟨0, 2, true⟩, ⟨2, 6, false⟩, ⟨6, 9, true⟩, ⟨9, 12, false⟩] := by
  have hblocks : ∀ block ∈ crowdedBlocks, block.start ≤ block.stop := by decide
  have hsorted : crowdedBlocks.Pairwise fun left right => left.start ≤ right.start := by decide
  exact ⟨hblocks, hsorted, (areRuns_iff_eq_partition 12 hblocks hsorted).2 (by decide)⟩

end Crowfoot.MarkedRange
