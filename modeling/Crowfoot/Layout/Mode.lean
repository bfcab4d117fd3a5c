import Crowfoot.Schema.Format

/-!
# Layout choices

The algorithms that place tables, and whether the scene is flat or has depth.
-/

namespace Crowfoot

/-- How tables are placed. -/
inductive LayoutAlgorithm where
  /-- A simulation of springs and repulsion. -/
  | force
  /-- By levels along foreign keys. -/
  | hierarchical
  /-- On a circle or a sphere. -/
  | circular
  deriving DecidableEq, Repr

/-- The name of an algorithm. -/
def LayoutAlgorithm.name : LayoutAlgorithm → String
  | .force => "force"
  | .hierarchical => "hierarchical"
  | .circular => "circular"

/-- The algorithm a user means. -/
def LayoutAlgorithm.ofName? (name : String) : Option LayoutAlgorithm :=
  match canonicalName name with
  | "force" | "force-directed" | "forcedirected" => some .force
  | "hierarchical" | "hierarchy" => some .hierarchical
  | "circular" | "circle" | "spherical" => some .circular
  | _ => none

/-- The dimensions of the scene. -/
inductive ViewMode where
  | flat
  | spatial
  deriving DecidableEq, Repr

/-- The name of a view mode. -/
def ViewMode.name : ViewMode → String
  | .flat => "2D"
  | .spatial => "3D"

/-- The view mode a user means. -/
def ViewMode.ofName? (name : String) : Option ViewMode :=
  match canonicalName name with
  | "2d" => some .flat
  | "3d" => some .spatial
  | _ => none

end Crowfoot
