/-!
# Points

Points and displacements in the scene. `y` points up; a flat layout keeps it at zero.
-/

namespace Crowfoot

/-- A point or a displacement. -/
structure Point where
  x : Float
  y : Float
  z : Float
  deriving BEq, Repr

namespace Point

/-- The origin. -/
def origin : Point := ⟨0.0, 0.0, 0.0⟩

/-- The unit step along the first axis. -/
def unitX : Point := ⟨1.0, 0.0, 0.0⟩

instance : Inhabited Point := ⟨origin⟩

instance : Add Point :=
  ⟨fun left right => ⟨left.x + right.x, left.y + right.y, left.z + right.z⟩⟩

instance : Sub Point :=
  ⟨fun left right => ⟨left.x - right.x, left.y - right.y, left.z - right.z⟩⟩

/-- The displacement stretched by a factor. -/
def scale (point : Point) (factor : Float) : Point :=
  ⟨point.x * factor, point.y * factor, point.z * factor⟩

/-- The displacement divided by a number. -/
def shrink (point : Point) (divisor : Float) : Point :=
  ⟨point.x / divisor, point.y / divisor, point.z / divisor⟩

/-- The Euclidean length. -/
def length (point : Point) : Float :=
  (point.x * point.x + point.y * point.y + point.z * point.z).sqrt

/-- The mean of the points; the origin when there are none. -/
def centroid (points : List Point) : Point :=
  if points.isEmpty then
    origin
  else
    (points.foldl (· + ·) origin).shrink points.length.toFloat

end Point

end Crowfoot
