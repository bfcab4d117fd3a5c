import Crowfoot.Layout.Graph
import Crowfoot.Layout.Placement

/-!
# Force-directed layout

A simulation of a fixed number of steps. In each step all pairs of tables repel each other, in a
spatial view everything is drawn to the centre, foreign keys act as springs, and then the tables
move.
-/

namespace Crowfoot

/-- The constants of the simulation. -/
structure ForceParams where
  iterations : Nat := 150
  flatRepulsion : Float := 12.0
  spatialRepulsion : Float := 15.0
  /-- The pull to the centre by unit of distance, in a spatial view. -/
  centering : Float := 0.01
  /-- The greatest pull to the centre. -/
  centeringLimit : Float := 0.5
  flatRestLength : Float := 3.0
  spatialRestLength : Float := 4.0
  stiffness : Float := 0.08
  damping : Float := 0.85
  /-- Tables that are closer count as so far apart, along the first axis. -/
  minDistance : Float := 0.1
  massPerColumn : Float := 0.1

namespace ForceParams

/-- The strength of repulsion in a view mode. -/
def repulsion (params : ForceParams) : ViewMode → Float
  | .flat => params.flatRepulsion
  | .spatial => params.spatialRepulsion

/-- The length of an unstretched spring in a view mode. -/
def restLength (params : ForceParams) : ViewMode → Float
  | .flat => params.flatRestLength
  | .spatial => params.spatialRestLength

/-- The push that a table gets from one that comes later, and gives to it in return. -/
def push (params : ForceParams) (mode : ViewMode) (earlier later : Point) : Point :=
  let delta := earlier - later
  let distance := delta.length
  let (direction, distance) :=
    if distance < params.minDistance then
      (Point.unitX, params.minDistance)
    else
      (delta.shrink distance, distance)
  direction.scale (params.repulsion mode / (distance * distance))

/-- The velocity of a table after all pushes, those of earlier tables first. -/
def repelled (params : ForceParams) (mode : ViewMode) (positions : List Point) (node : Nat)
    (position : Point) : Point :=
  positions.zipIdx.foldl (fun velocity (other, index) =>
    if index < node then
      velocity - params.push mode other position
    else if node < index then
      velocity + params.push mode position other
    else
      velocity) Point.origin

/-- The velocity after the pull to the centre. -/
def centered (params : ForceParams) (mode : ViewMode) (center position velocity : Point) : Point :=
  match mode with
  | .flat => velocity
  | .spatial =>
    let pull := (center - position).scale params.centering
    let length := pull.length
    velocity +
      if length > params.centeringLimit then pull.scale (params.centeringLimit / length) else pull

/-- The pull of a spring between two points; none between points that are too close. -/
def springPull? (params : ForceParams) (mode : ViewMode) (child parent : Point) : Option Point :=
  let delta := parent - child
  let distance := delta.length
  if distance < params.minDistance then
    none
  else
    some ((delta.shrink distance).scale ((distance - params.restLength mode) * params.stiffness))

/-- The velocity of a table of some mass after the pulls of its springs in the order of edges. -/
def sprung (params : ForceParams) (mode : ViewMode) (edges : List Edge) (positions : Array Point)
    (node : Nat) (mass : Float) (velocity : Point) : Point :=
  edges.foldl (fun velocity edge =>
    if edge.child = node ∨ edge.parent = node then
      match params.springPull? mode (positions.getD edge.child Point.origin)
          (positions.getD edge.parent Point.origin) with
      | none => velocity
      | some pull =>
        if edge.child = node then
          velocity + pull.shrink mass
        else
          velocity - pull.shrink mass
    else
      velocity) velocity

/-- One step of the simulation. -/
def step (params : ForceParams) (mode : ViewMode) (graph : Graph) (masses : List Float)
    (positions : List Point) : List Point :=
  let center := Point.centroid positions
  let places := positions.toArray
  (positions.zip masses).zipIdx.map fun ((position, mass), node) =>
    let velocity := params.sprung mode graph.edges places node mass
      (params.centered mode center position (params.repelled mode positions node position))
    position + velocity.scale params.damping

/-- The force-directed layout of a graph, from a start on the circle or sphere. -/
def positions (params : ForceParams) (start : CircleParams) (mode : ViewMode) (graph : Graph) :
    List Point :=
  let masses := graph.columnCounts.map fun count => 1.0 + params.massPerColumn * count.toFloat
  Nat.repeat (params.step mode graph masses) params.iterations
    (Placement.round mode graph.size start)

end ForceParams

end Crowfoot
