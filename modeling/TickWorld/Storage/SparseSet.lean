import TickWorld.Entity
import TickWorld.Failure
import TickWorld.Storage.SwapRemove

namespace TickWorld

/-- From this many elements of eight bytes on the allocator refuses an array: it would have more
bytes than any allocation may have. -/
def slotLimit : Nat := 0x1000000000000000

/-- Values that can be kept in a sparse set. That no two values have one index holds of entities
and of numbers, which are their own indices; it is asked of all other values that are kept so. -/
class SparseIndex (α : Type) where
  index : α → Nat
  index_inj : ∀ {a b : α}, index a = index b → a = b
  /-- From this many values on the allocator refuses an array of them. -/
  arrayLimit : Nat

instance : SparseIndex Entity := ⟨Entity.index, Entity.index_inj, 2 * slotLimit⟩

instance : SparseIndex UInt8 := ⟨UInt8.toNat, UInt8.toNat_inj.mp, 8 * slotLimit⟩

instance : SparseIndex UInt16 := ⟨UInt16.toNat, UInt16.toNat_inj.mp, 4 * slotLimit⟩

instance : SparseIndex UInt32 := ⟨UInt32.toNat, UInt32.toNat_inj.mp, 2 * slotLimit⟩

instance : SparseIndex UInt64 := ⟨UInt64.toNat, UInt64.toNat_inj.mp, slotLimit⟩

/-- A set of values, packed in `dense` and found through `sparse`. An entry of `sparse` counts only
if it leads back to the value that was looked up, so entries of removed values may stay. -/
structure SparseSet (α : Type) where
  /-- The present values. -/
  dense : Array α := #[]
  /-- At the index of a present value, its position in `dense`. -/
  sparse : Array Nat := #[]

namespace SparseSet

variable {α : Type}

def empty : SparseSet α := {}

def toList (s : SparseSet α) : List α := s.dense.toList

def size (s : SparseSet α) : Nat := s.dense.size

def isEmpty (s : SparseSet α) : Bool := s.dense.isEmpty

/-- Values with an index below the capacity fit without growing. -/
def capacity (s : SparseSet α) : Nat := s.sparse.size

def first? (s : SparseSet α) : Option α := s.dense[0]?

def clear (s : SparseSet α) : SparseSet α := { s with dense := #[] }

def grow (s : SparseSet α) (n : Nat) : SparseSet α :=
  { s with sparse := s.sparse ++ Array.replicate (n - s.sparse.size) 0 }

variable [SparseIndex α]

open SparseIndex (index arrayLimit)

/-- Asks for room for indices below `n`: for as many positions and then for as many values. Only if
both are given, the capacity is raised to `n`. -/
def tryReserve (s : SparseSet α) (n : Nat) : Bool × SparseSet α :=
  if s.capacity < n then
    if slotLimit ≤ n then (false, s)
    else if arrayLimit α ≤ n then (false, s)
    else (true, s.grow n)
  else (true, s)

/-- Demands room for indices below `n`: for as many values and then for as many positions. -/
def reserve (s : SparseSet α) (n : Nat) : Except Fault (SparseSet α) :=
  if s.capacity < n then
    if arrayLimit α ≤ n then .error .capacityOverflow
    else if slotLimit ≤ n then .error .capacityOverflow
    else .ok (s.grow n)
  else .ok s

def withCapacity (n : Nat) : Except Fault (SparseSet α) := empty.reserve n

variable [DecidableEq α]

def indexOf? (s : SparseSet α) (v : α) : Option Nat :=
  match s.sparse[index v]? with
  | none => none
  | some slot =>
    match s.dense[slot]? with
    | none => none
    | some stored => if stored = v then some slot else none

def has (s : SparseSet α) (v : α) : Bool := (s.indexOf? v).isSome

def append (s : SparseSet α) (v : α) : SparseSet α :=
  let ⟨dense, sparse⟩ := s.grow (index v + 1)
  let sparse := sparse.setIfInBounds (index v) dense.size
  ⟨dense.push v, sparse⟩

def insert? (s : SparseSet α) (v : α) : Option (SparseSet α) :=
  if s.has v then none else some (s.append v)

def insert (s : SparseSet α) (v : α) : SparseSet α :=
  if s.has v then s else s.append v

def eraseAt (s : SparseSet α) (slot : Nat) : SparseSet α :=
  let ⟨dense, sparse⟩ := s
  let dense := swapRemove dense slot
  match dense[slot]? with
  | none => ⟨dense, sparse⟩
  | some moved => ⟨dense, sparse.setIfInBounds (index moved) slot⟩

def erase? (s : SparseSet α) (v : α) : Option (SparseSet α) :=
  match s.indexOf? v with
  | none => none
  | some slot => some (s.eraseAt slot)

def erase (s : SparseSet α) (v : α) : SparseSet α :=
  match s.indexOf? v with
  | none => s
  | some slot => s.eraseAt slot

end SparseSet

end TickWorld
