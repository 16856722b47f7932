import TickWorld.Drift.Component
import TickWorld.Registry.Component

namespace TickWorld.Drift

structure Report where
  tick : Nat
  /-- The number of live entities. -/
  live : Nat
  /-- The name and the number of values of each pool. -/
  pools : List (String × Nat)
  /-- The mean of all places. -/
  centroid : Option Position

/-- The mean of some places: summed up and divided in double precision, then rounded. -/
def mean (places : Array Position) : Option Position :=
  if places.isEmpty then none
  else
    let (x, y) := places.foldl (fun (x, y) place => (x + place.x.toFloat, y + place.y.toFloat))
      ((0.0 : Float), (0.0 : Float))
    let n := places.size.toFloat
    some ⟨(x / n).toFloat32, (y / n).toFloat32⟩

variable {ε : Type} [DecidableEq ε] [ComponentKind ε]

/-- The mean of the places in a registry, with those of entities that are not alive. -/
def meanPlace (r : Registry (Kind ε)) : Option Position :=
  match r.pool? .position with
  | none => none
  | some pool => mean pool.values

def Report.capture (tick : Nat) (r : Registry (Kind ε)) : Report :=
  ⟨tick, r.size, r.poolSizes, meanPlace r⟩

end TickWorld.Drift
