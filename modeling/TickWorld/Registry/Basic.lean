import TickWorld.Storage.Pools

namespace TickWorld

structure Sizing where
  /-- Entity numbers below this fit without growing. -/
  entityCapacity : Nat := 1024
  /-- The capacity that each pool is created with. -/
  poolCapacity : Nat := 64
deriving DecidableEq

def Sizing.uniform (n : Nat) : Sizing := ⟨n, n⟩

/-- Entities and their components. A number is issued when an entity is created and none waits to be
used again. A destroyed entity lets its number wait, so that an issued number is either live or
waiting. -/
structure Registry (κ : Type) [ComponentKind κ] where
  live : SparseSet Entity := .empty
  /-- Destroyed entities whose numbers wait to be used again. -/
  recycled : SparseSet Entity := .empty
  /-- How many numbers were ever issued: all those below it. -/
  issued : Nat := 0
  pools : Pools κ := .empty
  sizing : Sizing := {}

namespace Registry

variable {κ : Type} [ComponentKind κ]

def ofSizing (sizing : Sizing) : Except Fault (Registry κ) :=
  match SparseSet.withCapacity sizing.entityCapacity with
  | .error fault => .error fault
  | .ok live =>
    match SparseSet.withCapacity sizing.entityCapacity with
    | .error fault => .error fault
    | .ok recycled => .ok { live, recycled, sizing }

def isLive (r : Registry κ) (e : Entity) : Bool := r.live.has e

def size (r : Registry κ) : Nat := r.live.size

def isEmpty (r : Registry κ) : Bool := r.live.isEmpty

def entities (r : Registry κ) : List Entity := r.live.toList

def capacity (r : Registry κ) : Nat := r.live.capacity

def reserve (r : Registry κ) (n : Nat) : Except Fault (Registry κ) :=
  match r.live.reserve n with
  | .error fault => .error fault
  | .ok live =>
    match r.recycled.reserve n with
    | .error fault => .error fault
    | .ok recycled => .ok { r with live, recycled }

def debug (r : Registry κ) : String :=
  "EntityRegistry \x7b live: " ++ toString r.live.size ++ ", recycled: "
    ++ toString r.recycled.size ++ ", next_entity: " ++ toString r.issued ++ ", pools: "
    ++ toString r.pools.size ++ " \x7d"

variable [DecidableEq κ]

/-- Lets an entity live. Values that its number was given before it lived are dropped. -/
def enliven (r : Registry κ) (e : Entity) : Outcome (Registry κ) (Except Failure Entity) :=
  let stale := r.pools.countOwned e
  let growing := if r.live.capacity ≤ e.index then #[.growingEntities e r.live.capacity] else #[]
  let dropped := if stale = 0 then #[] else #[.droppedComponents e stale]
  ⟨.ok e, { r with pools := r.pools.eraseEntity e, live := r.live.insert e }, growing ++ dropped⟩

/-- Creates an entity: one whose number waits to be used again, or else one with a new number. -/
def create (r : Registry κ) : Outcome (Registry κ) (Except Failure Entity) :=
  match r.recycled.first? with
  | some e => { r with recycled := r.recycled.erase e }.enliven e
  | none =>
    if r.issued < Entity.null.index then
      { r with issued := r.issued + 1 }.enliven (.ofNat r.issued)
    else ⟨.error .entitiesExhausted, r, #[]⟩

def retire (r : Registry κ) (e : Entity) : Registry κ :=
  { r with
    pools := r.pools.eraseEntity e
    live := r.live.erase e
    recycled := r.recycled.insert e }

def destroy (r : Registry κ) (e : Entity) : Outcome (Registry κ) (Except Failure Unit) :=
  if r.isLive e then ⟨.ok (), r.retire e, #[]⟩ else ⟨.error (.deadEntity e), r, #[]⟩

def destroyCounting (r : Registry κ) (count : Nat) :
    List Entity → Outcome (Registry κ) (Except Failure Nat)
  | [] => ⟨.ok count, r, #[]⟩
  | e :: es =>
    if r.isLive e then (r.retire e).destroyCounting (count + 1) es
    else ⟨.error (.deadEntity e), r, #[]⟩

/-- Destroys entities from left to right, up to the first that is not alive, and counts them. The
entities before it stay destroyed. -/
def destroyMany (r : Registry κ) (es : List Entity) : Outcome (Registry κ) (Except Failure Nat) :=
  r.destroyCounting 0 es

/-- Destroys every entity; their numbers wait in the order in which they lived. -/
def reset (r : Registry κ) : Outcome (Registry κ) Unit :=
  ⟨(), { r with
    recycled := r.live.toList.foldl (·.insert ·) r.recycled
    live := r.live.clear
    pools := r.pools.clear }, #[.registryReset r.live.size]⟩

end Registry

end TickWorld
