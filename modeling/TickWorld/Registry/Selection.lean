import TickWorld.Registry.Component

namespace TickWorld

open ComponentKind (name)

namespace Registry

variable {κ : Type} [DecidableEq κ] [ComponentKind κ]

def has (r : Registry κ) (e : Entity) (q : List κ) : Bool :=
  r.isLive e && r.pools.ownsAll e q

/-- The live entities that own a component of each kind, in registry order. -/
def matching (r : Registry κ) (q : List κ) : List Entity :=
  r.entities.filter (r.pools.ownsAll · q)

def count (r : Registry κ) (q : List κ) : Nat := r.entities.countP (r.pools.ownsAll · q)

def isEmptyWith (r : Registry κ) (q : List κ) : Bool := !r.entities.any (r.pools.ownsAll · q)

def destroyWith (r : Registry κ) (q : List κ) : Outcome (Registry κ) Nat :=
  let doomed := r.matching q
  ⟨doomed.length, doomed.foldl retire r, #[.batchDestroyed (q.map name) doomed.length]⟩

def getMany (r : Registry κ) (e : Entity) (q : List κ) : Except Failure (Row Value q) :=
  if r.isLive e then
    match r.pools.claim [] q with
    | .error cause => .error cause
    | .ok () => r.pools.fetch e q
  else .error (.deadEntity e)

def putMany (r : Registry κ) (e : Entity) {q : List κ} (row : Row Value q) : Registry κ :=
  { r with pools := r.pools.store e row }

/-- Detaches the components of a live entity, all of them or none. -/
def delete (r : Registry κ) (e : Entity) (q : List κ) :
    Outcome (Registry κ) (Except Failure Unit) :=
  if r.isLive e then
    match firstRepeat? [] q with
    | some k => ⟨.error (.duplicateComponent (name k)), r, #[]⟩
    | none =>
      match r.pools.missing? e q with
      | some k => ⟨.error (.missingComponent e (name k)), r, #[]⟩
      | none => ⟨.ok (), { r with pools := (r.pools.deleteAll e q).2 }, #[]⟩
  else ⟨.error (.deadEntity e), r, #[]⟩

/-- Detaches the components that an entity owns, alive or not, and counts them. -/
def deleteOwned (r : Registry κ) (e : Entity) (q : List κ) : Outcome (Registry κ) Nat :=
  let (count, pools) := r.pools.deleteAll e q
  ⟨count, { r with pools }, #[]⟩

/-- Empties the pools of the kinds; entities stay alive. -/
def resetPools (r : Registry κ) (q : List κ) : Registry κ :=
  { r with pools := r.pools.clearAll q }

/-- Visits every live entity that owns a component of each kind, in registry order: `f` sees the
entity and its components and says what they become. The answer counts the entities visited. -/
def forEach {σ : Type} (r : Registry κ) (q : List κ)
    (f : σ → Entity → Row Value q → σ × Row Value q) (s : σ) : Outcome (Registry κ) (Nat × σ) :=
  match r.pools.claim [] q with
  | .error cause => ⟨(0, s), r, #[.matchedNothing cause]⟩
  | .ok () =>
    let ⟨live, recycled, issued, pools, sizing⟩ := r
    let (count, s, pools) := live.dense.foldl (Pools.visit q f) (0, s, pools)
    ⟨(count, s), ⟨live, recycled, issued, pools, sizing⟩, #[]⟩

end Registry

/-- The pools of a list of kinds, claimed once, together with the entities alive at that time. -/
structure Query (κ : Type) [ComponentKind κ] (q : List κ) where
  live : SparseSet Entity
  pools : Pools κ

variable {κ : Type} [DecidableEq κ] [ComponentKind κ]

def Registry.query (r : Registry κ) (q : List κ) : Except Failure (Query κ q) :=
  match r.pools.claim [] q with
  | .error cause => .error cause
  | .ok () => .ok ⟨r.live, r.pools⟩

namespace Query

variable {q : List κ}

/-- Hands the pools back to the registry that they were claimed from. -/
def release (x : Query κ q) (r : Registry κ) : Registry κ := { r with pools := x.pools }

def has (x : Query κ q) (e : Entity) : Bool := x.live.has e && q.all (x.pools.owns e)

def get? (x : Query κ q) (e : Entity) : Option (Row Value q) :=
  if x.live.has e then (x.pools.fetch e q).toOption else none

def put (x : Query κ q) (e : Entity) (row : Row Value q) : Query κ q :=
  { x with pools := x.pools.store e row }

def entities (x : Query κ q) : List Entity :=
  x.live.toList.filter fun e => q.all (x.pools.owns e)

def count (x : Query κ q) : Nat := x.live.toList.countP fun e => q.all (x.pools.owns e)

/-- Visits every live entity that owns a component of each kind, in registry order. -/
def forEach {σ : Type} (x : Query κ q) (f : σ → Entity → Row Value q → σ × Row Value q) (s : σ) :
    σ × Query κ q :=
  let ⟨live, pools⟩ := x
  let (_, s, pools) := live.dense.foldl (Pools.visit q f) (0, s, pools)
  (s, ⟨live, pools⟩)

end Query

end TickWorld
