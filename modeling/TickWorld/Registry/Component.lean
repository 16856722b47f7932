import TickWorld.Registry.Basic

namespace TickWorld.Registry

open ComponentKind (name)

variable {κ : Type} [DecidableEq κ] [ComponentKind κ]

/-- Runs an operation on the pools on behalf of a live entity. It is told the capacity with which
pools are created. -/
private def onPools {ρ : Type} (r : Registry κ) (e : Entity)
    (f : Pools κ → Nat → Outcome (Pools κ) (Except Failure ρ)) :
    Outcome (Registry κ) (Except Failure ρ) :=
  if r.isLive e then
    let ⟨live, recycled, issued, pools, sizing⟩ := r
    (f pools sizing.poolCapacity).mapState (⟨live, recycled, issued, ·, sizing⟩)
  else ⟨.error (.deadEntity e), r, #[]⟩

def assign (r : Registry κ) (e : Entity) (k : κ) (value : Value k) :
    Outcome (Registry κ) (Except Failure Unit) :=
  r.onPools e fun t capacity => t.updateOrCreate k capacity (·.assign e value)

def assignOrReplace (r : Registry κ) (e : Entity) (k : κ) (value : Value k) :
    Outcome (Registry κ) (Except Failure Unit) :=
  r.onPools e fun t capacity => t.updateOrCreate k capacity (·.assignOrReplace e value)

def replace (r : Registry κ) (e : Entity) (k : κ) (value : Value k) :
    Outcome (Registry κ) (Except Failure (Value k)) :=
  r.onPools e fun t _ =>
    let (result, t) := t.update k (.error (.unregisteredComponent (name k))) (·.replace e value)
    ⟨result, t, #[]⟩

def get? (r : Registry κ) (e : Entity) (k : κ) : Option (Value k) :=
  if r.isLive e then (r.pools.get? k).bind (·.get? e) else none

def modify (r : Registry κ) (e : Entity) (k : κ) (f : Value k → Value k) : Registry κ :=
  if r.isLive e then { r with pools := r.pools.modify k (·.modify e f) } else r

def componentNames (r : Registry κ) (e : Entity) : List String :=
  if r.isLive e then r.pools.namesOwned e else []

def pool? (r : Registry κ) (k : κ) : Option (Pool k) := r.pools.get? k

/-- Changes the pool of a kind, if there is one, without regard to which entities are alive. -/
def modifyPool (r : Registry κ) (k : κ) (f : Pool k → Pool k) : Registry κ :=
  { r with pools := r.pools.modify k f }

def reservePool (r : Registry κ) (k : κ) (n : Nat) :
    Outcome (Registry κ) (Except Failure Unit) :=
  let ⟨live, recycled, issued, pools, sizing⟩ := r
  (pools.updateOrCreate k sizing.poolCapacity (·.reserve n)).mapState
    (⟨live, recycled, issued, ·, sizing⟩)

def poolCapacity? (r : Registry κ) (k : κ) : Option Nat := (r.pool? k).map Pool.capacity

def hasPool (r : Registry κ) (k : κ) : Bool := r.pools.contains k

def poolCount (r : Registry κ) : Nat := r.pools.size

def poolSizes (r : Registry κ) : List (String × Nat) := r.pools.census

end TickWorld.Registry
