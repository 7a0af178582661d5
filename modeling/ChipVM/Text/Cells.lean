import ChipVM.Text.CellWidth
import ChipVM.Text.Cluster

/-!
# Text in cells

The clusters of a text are put into the cells of a row one after the other. One that takes no cell
is not shown, and the first that does not fit ends the text.
-/

namespace ChipVM.Text

/-- The clusters from the front that fit into `room` cells, and how many cells they take. -/
def fitClusters : Nat → List (List Char) → List (List Char) × Nat
  | _, [] => ([], 0)
  | room, k :: rest =>
    if clusterWidth k = 0 then fitClusters room rest
    else if clusterWidth k ≤ room then
      let (kept, used) := fitClusters (room - clusterWidth k) rest
      (k :: kept, clusterWidth k + used)
    else ([], 0)

/-- A cluster as it is shown: two cells are taken for it, and any more of them stay blank. -/
def shownCluster (k : List Char) : List Char := k ++ List.replicate (clusterWidth k - 2) ' '

/-- The part of a text that is shown in `room` cells, and how many cells it takes. -/
def shownIn (room : Nat) (cs : List Char) : List Char × Nat :=
  let (kept, used) := fitClusters room (clusters cs)
  (kept.flatMap shownCluster, used)

end ChipVM.Text
