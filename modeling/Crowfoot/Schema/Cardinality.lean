import Crowfoot.Text.Blank
import Crowfoot.Text.Case

/-!
# Cardinalities

How many rows stand on either side of a relationship. A cardinality is written `left:right`; the
left side is the referenced table and the right side the one with the foreign key.
-/

namespace Crowfoot

/-- How many rows one side of a relationship has. -/
inductive Multiplicity where
  | one
  | zeroOrOne
  | many
  | zeroOrMany
  | oneOrMany
  deriving DecidableEq, Repr

/-- The written form of a multiplicity. -/
def Multiplicity.symbol : Multiplicity → String
  | .one => "1"
  | .zeroOrOne => "0..1"
  | .many => "N"
  | .zeroOrMany => "0..N"
  | .oneOrMany => "1..N"

/-- Reads a multiplicity; `M` and `*` may stand for `N`, blanks around it do not count. -/
def Multiplicity.ofSymbol? (symbol : List Char) : Option Multiplicity :=
  match String.ofList (Text.upper (Text.trim symbol)) with
  | "1" => some .one
  | "0..1" => some .zeroOrOne
  | "N" | "M" | "*" => some .many
  | "0..N" | "0..*" => some .zeroOrMany
  | "1..N" | "1..*" => some .oneOrMany
  | _ => none

/-- More than one row is possible. -/
def Multiplicity.isMany : Multiplicity → Bool
  | .one => false
  | .zeroOrOne => false
  | .many => true
  | .zeroOrMany => true
  | .oneOrMany => true

/-- The multiplicities of both sides of a relationship. -/
structure Cardinality where
  left : Multiplicity
  right : Multiplicity
  deriving DecidableEq, Repr

namespace Cardinality

/-- The same relationship seen from the other side. -/
def reversed (cardinality : Cardinality) : Cardinality :=
  ⟨cardinality.right, cardinality.left⟩

/-- The written form of a cardinality. -/
def text (cardinality : Cardinality) : String :=
  cardinality.left.symbol ++ ":" ++ cardinality.right.symbol

/-- Reads a cardinality, splitting at the first colon. -/
def ofText? (text : String) : Option Cardinality := do
  let (left, right) ← Text.splitAtFirst ':' text.toList
  return ⟨← Multiplicity.ofSymbol? left, ← Multiplicity.ofSymbol? right⟩

@[simp] theorem reversed_reversed (cardinality : Cardinality) :
    cardinality.reversed.reversed = cardinality := rfl

/-- Writing a cardinality loses nothing. -/
theorem ofText?_text (cardinality : Cardinality) :
    ofText? cardinality.text = some cardinality := by
  obtain ⟨left, right⟩ := cardinality
  cases left <;> cases right <;> decide +kernel

end Cardinality

end Crowfoot
