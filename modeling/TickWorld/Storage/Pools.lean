import TickWorld.Storage.Pool

namespace TickWorld

open ComponentKind (name)

variable {κ : Type} [DecidableEq κ] [ComponentKind κ]

structure AnyPool (κ : Type) [ComponentKind κ] where
  kind : κ
  pool : Pool kind

namespace AnyPool

def cast? (p : AnyPool κ) (k : κ) : Option (Pool k) :=
  if h : p.kind = k then some (h ▸ p.pool) else none

def has (p : AnyPool κ) (e : Entity) : Bool := p.pool.has e

def erase (p : AnyPool κ) (e : Entity) : AnyPool κ := ⟨p.kind, p.pool.erase e⟩

def clear (p : AnyPool κ) : AnyPool κ := ⟨p.kind, p.pool.clear⟩

def count (p : AnyPool κ) : String × Nat := (name p.kind, p.pool.size)

end AnyPool

/-- Pools in the order of creation, and the slot number of each kind that has one. A kind has at
most one pool, which it gets when it is first used. -/
structure Pools (κ : Type) [ComponentKind κ] where
  slots : List (κ × Nat) := []
  pools : Array (AnyPool κ) := #[]

namespace Pools

def empty : Pools κ := {}

def size (t : Pools κ) : Nat := t.pools.size

def slot? (t : Pools κ) (k : κ) : Option Nat := t.slots.lookup k

def get? (t : Pools κ) (k : κ) : Option (Pool k) :=
  match t.slot? k with
  | none => none
  | some slot =>
    match t.pools[slot]? with
    | none => none
    | some p => p.cast? k

def contains (t : Pools κ) (k : κ) : Bool := (t.slot? k).isSome

/-- Runs an operation on the pool of a kind; where there is none, the answer is `absent`. The pool
is taken out of its slot meanwhile, so that it can be changed in place. -/
def update {ρ : Type} (t : Pools κ) (k : κ) (absent : ρ) (f : Pool k → ρ × Pool k) :
    ρ × Pools κ :=
  match t.slot? k, t.get? k with
  | some slot, some p =>
    let ⟨slots, pools⟩ := t
    let pools := pools.setIfInBounds slot ⟨k, .empty⟩
    let (result, p) := f p
    (result, ⟨slots, pools.setIfInBounds slot ⟨k, p⟩⟩)
  | _, _ => (absent, t)

def modify (t : Pools κ) (k : κ) (f : Pool k → Pool k) : Pools κ :=
  match t.slot? k with
  | none => t
  | some slot =>
    { t with pools := t.pools.modify slot fun p =>
        match p.cast? k with
        | some p => ⟨k, f p⟩
        | none => p }

/-- Creates a pool for a kind that has none, with room for entity numbers below `capacity`. Both
tables grow by one entry, and the allocator is taken to grant that: there are never more entries
than kinds. -/
def create (t : Pools κ) (k : κ) (capacity : Nat) : Outcome (Pools κ) (Except Failure Unit) :=
  match (Pool.empty : Pool k).reserve capacity with
  | (.error cause, _) => ⟨.error cause, t, #[]⟩
  | (.ok (), p) =>
    let slot := t.pools.size
    ⟨.ok (), ⟨(k, slot) :: t.slots, t.pools.push ⟨k, p⟩⟩,
      #[.poolAllocated (name k) slot capacity]⟩

def ensure (t : Pools κ) (k : κ) (capacity : Nat) : Outcome (Pools κ) (Except Failure Unit) :=
  if t.contains k then ⟨.ok (), t, #[]⟩ else t.create k capacity

def updateOrCreate {ρ : Type} (t : Pools κ) (k : κ) (capacity : Nat)
    (f : Pool k → Except Failure ρ × Pool k) : Outcome (Pools κ) (Except Failure ρ) :=
  match t.ensure k capacity with
  | ⟨.error cause, t, events⟩ => ⟨.error cause, t, events⟩
  | ⟨.ok (), t, events⟩ =>
    let (result, t) := t.update k (.error (.unregisteredComponent (name k))) f
    ⟨result, t, events⟩

def owns (t : Pools κ) (e : Entity) (k : κ) : Bool :=
  match t.get? k with
  | none => false
  | some p => p.has e

def countOwned (t : Pools κ) (e : Entity) : Nat := t.pools.countP (·.has e)

def eraseEntity (t : Pools κ) (e : Entity) : Pools κ :=
  { t with pools := t.pools.map (·.erase e) }

def namesOwned (t : Pools κ) (e : Entity) : List String :=
  (t.pools.toList.filter (·.has e)).map fun p => name p.kind

def clear (t : Pools κ) : Pools κ := { t with pools := t.pools.map (·.clear) }

def census (t : Pools κ) : List (String × Nat) := t.pools.toList.map (·.count)

def missing? (t : Pools κ) (e : Entity) (q : List κ) : Option κ := q.find? (!t.owns e ·)

/-- Whether an entity owns a component of each kind of a list. A list that names a kind twice is
owned by nothing. -/
def ownsAll (t : Pools κ) (e : Entity) (q : List κ) : Bool :=
  (firstRepeat? [] q).isNone && (t.missing? e q).isNone

def deleteAll (t : Pools κ) (e : Entity) (q : List κ) : Nat × Pools κ :=
  q.foldl (fun (count, t) k =>
    (if t.owns e k then count + 1 else count, t.modify k (·.erase e))) (0, t)

def clearAll (t : Pools κ) (q : List κ) : Pools κ := q.foldl (·.modify · Pool.clear) t

/-- Claims the pools of a list of kinds from left to right, each at most once. -/
def claim (t : Pools κ) (taken : List κ) : List κ → Except Failure Unit
  | [] => .ok ()
  | k :: q =>
    if !t.contains k then .error (.unregisteredComponent (name k))
    else if k ∈ taken then .error (.duplicateComponent (name k))
    else t.claim (k :: taken) q

/-- The components of an entity, one for each kind of a list. The first kind of which it owns none
is reported. -/
def fetch (t : Pools κ) (e : Entity) : (q : List κ) → Except Failure (Row Value q)
  | [] => .ok .nil
  | k :: q =>
    match (t.get? k).bind (·.get? e) with
    | none => .error (.missingComponent e (name k))
    | some value =>
      match t.fetch e q with
      | .error cause => .error cause
      | .ok rest => .ok (.cons value rest)

def store (t : Pools κ) (e : Entity) : {q : List κ} → Row Value q → Pools κ
  | [], .nil => t
  | k :: _, .cons value rest => (t.modify k (·.modify e fun _ => value)).store e rest

/-- Visits one entity if it owns all kinds of a list: `f` sees its components and says what they
become. The number of entities visited and the state of `f` are carried along. -/
def visit {σ : Type} (q : List κ) (f : σ → Entity → Row Value q → σ × Row Value q) :
    Nat × σ × Pools κ → Entity → Nat × σ × Pools κ
  | (count, s, t), e =>
    match t.fetch e q with
    | .error _ => (count, s, t)
    | .ok row =>
      let (s, row) := f s e row
      (count + 1, s, t.store e row)

end Pools

end TickWorld
