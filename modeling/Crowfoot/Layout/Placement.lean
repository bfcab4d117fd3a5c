import Crowfoot.Layout.Mode
import Crowfoot.Layout.Point

/-!
# Regular placements

Points on a sphere, on a circle and in a grid.
-/

namespace Crowfoot

/-- The radius of the circle or sphere on which tables are placed. -/
structure CircleParams where
  minRadius : Float := 6.0
  radiusPerTable : Float := 0.8

/-- The radius for a number of tables. -/
def CircleParams.radius (params : CircleParams) (count : Nat) : Float :=
  let grown := count.toFloat * params.radiusPerTable
  if params.minRadius < grown then grown else params.minRadius

namespace Placement

/-- Half a turn. -/
def halfTurn : Float := 3.141592653589793

/-- A full turn. -/
def fullTurn : Float := 6.283185307179586

/-- The angle between successive points of a spiral that never line up. -/
def goldenAngle : Float := halfTurn * (3.0 - (5.0 : Float).sqrt)

/-- Points on a spiral from pole to pole of a sphere. A single point is the origin. -/
def sphere (count : Nat) (radius : Float) : List Point :=
  if count = 1 then
    [Point.origin]
  else
    (List.range count).map fun index =>
      let i := index.toFloat
      let y := 1.0 - 2.0 * i / (count - 1).toFloat
      let squared := 1.0 - y * y
      let ring := (if squared < 0.0 then 0.0 else squared).sqrt
      let angle := i * goldenAngle
      Point.scale ⟨angle.cos * ring, y, angle.sin * ring⟩ radius

/-- Points evenly spaced on a level circle. A single point is the origin. -/
def circle (count : Nat) (radius : Float) : List Point :=
  if count = 1 then
    [Point.origin]
  else
    (List.range count).map fun index =>
      let angle := fullTurn * index.toFloat / count.toFloat
      ⟨angle.cos * radius, 0.0, angle.sin * radius⟩

/-- Points on the circle or sphere of a view mode. -/
def round (mode : ViewMode) (count : Nat) (params : CircleParams) : List Point :=
  match mode with
  | .flat => circle count (params.radius count)
  | .spatial => sphere count (params.radius count)

/-- The least number from a start on whose square reaches a bound, found within some steps. -/
def rootFrom (bound start : Nat) : Nat → Nat
  | 0 => start
  | steps + 1 => if bound ≤ start * start then start else rootFrom bound (start + 1) steps

/-- The number of cells in a row of a grid for some items: the least whose square reaches it. -/
def gridWidth (count : Nat) : Nat :=
  rootFrom count 1 count

/-- How far a place in a sequence is from the middle. -/
def offCenter (index count : Nat) : Float :=
  index.toFloat - (count.toFloat - 1.0) / 2.0

/-- The row and column of an item in a square grid of items, from the middle of the grid. -/
def gridCell (index count : Nat) : Float × Float :=
  let width := gridWidth count
  let height := (count + width - 1) / width
  (offCenter (index / width) height, offCenter (index % width) width)

/-- Moves all points so that their mean is the origin. -/
def recenter (points : List Point) : List Point :=
  points.map (· - Point.centroid points)

end Placement

end Crowfoot
