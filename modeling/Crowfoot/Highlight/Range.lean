import Crowfoot.Text.Offset

/-!
# Highlighted ranges

A text is covered by ranges that are marked valid or invalid. `partition` turns a list of marked
blocks into such a cover; whatever no block covers is valid.
-/

namespace Crowfoot

/-- A half-open range of offsets with its validity. -/
structure MarkedRange where
  start : Nat
  stop : Nat
  isValid : Bool
  deriving DecidableEq, Repr

namespace MarkedRange

/-- Adds a range behind others, given last first. An empty range is left out, and one that goes on
where the last ended with the same validity is merged into it. -/
def append (reversed : List MarkedRange) (range : MarkedRange) : List MarkedRange :=
  if range.stop ≤ range.start then
    reversed
  else
    match reversed with
    | last :: earlier =>
      if last.isValid = range.isValid ∧ last.stop = range.start then
        { last with stop := range.stop } :: earlier
      else
        range :: reversed
    | [] => [range]

/-- Goes on covering a text of a length from an offset, the ranges so far given last first. A block
counts only from the offset that is covered already up to the end of the text. -/
def partitionFrom (length : Nat) (reversed : List MarkedRange) (covered : Nat) :
    List MarkedRange → List MarkedRange
  | [] => (append reversed ⟨covered, length, true⟩).reverse
  | block :: blocks =>
    let start := min (max block.start covered) length
    let stop := min block.stop length
    let filled := append reversed ⟨covered, start, true⟩
    partitionFrom length (append filled ⟨start, stop, block.isValid⟩) (max covered stop) blocks

/-- Covers a text of a length with ranges, by blocks in the order of their starts. -/
def partition (length : Nat) (blocks : List MarkedRange) : List MarkedRange :=
  partitionFrom length [] 0 blocks

/-- The range with its offsets in UTF-16 code units instead of bytes. -/
def toUnits (text : List Char) (range : MarkedRange) : MarkedRange :=
  { range with
    start := Text.unitOffset text range.start, stop := Text.unitOffset text range.stop }

end MarkedRange

end Crowfoot
