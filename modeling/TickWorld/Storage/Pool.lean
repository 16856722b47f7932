import TickWorld.Component
import TickWorld.Outcome

namespace TickWorld

open ComponentKind (name valueLimit)

variable {κ : Type} [ComponentKind κ]

/-- The values of kind `k`, each with its owner. The value of an entity has the position that the
entity has among the owners, and both are compacted together. -/
structure Pool (k : κ) where
  owners : SparseSet Entity := .empty
  /-- The values in the order of the owners. -/
  values : Array (Value k) := #[]

namespace Pool

variable {k : κ}

def empty : Pool k := {}

instance : Inhabited (Pool k) := ⟨empty⟩

def withCapacity (n : Nat) : Except Fault (Pool k) :=
  match SparseSet.withCapacity n with
  | .error fault => .error fault
  | .ok owners => if 0 < n ∧ valueLimit k ≤ n then .error .capacityOverflow else .ok { owners }

def size (p : Pool k) : Nat := p.values.size

def isEmpty (p : Pool k) : Bool := p.values.isEmpty

def capacity (p : Pool k) : Nat := p.owners.capacity

def entities (p : Pool k) : List Entity := p.owners.toList

def pairs (p : Pool k) : List (Entity × Value k) := p.owners.toList.zip p.values.toList

def has (p : Pool k) (e : Entity) : Bool := p.owners.has e

def get? (p : Pool k) (e : Entity) : Option (Value k) :=
  match p.owners.indexOf? e with
  | none => none
  | some slot => p.values[slot]?

def get (p : Pool k) (e : Entity) : Except Fault (Value k) :=
  match p.get? e with
  | some value => .ok value
  | none => .error (.notOwned e (name k))

def modify (p : Pool k) (e : Entity) (f : Value k → Value k) : Pool k :=
  match p.owners.indexOf? e with
  | none => p
  | some slot => { p with values := p.values.modify slot f }

def map (p : Pool k) (f : Entity → Value k → Value k) : Pool k :=
  { p with values := p.values.mapIdx fun slot value =>
      match p.owners.dense[slot]? with
      | some e => f e value
      | none => value }

private def refused (k : κ) (requested : Nat) : Failure :=
  .allocationFailed (name k) requested

/-- Makes room for entity numbers below `n`, first among the owners, then for as many values. -/
def reserve (p : Pool k) (n : Nat) : Except Failure Unit × Pool k :=
  let ⟨owners, values⟩ := p
  match owners.tryReserve n with
  | (false, owners) => (.error (refused k n), ⟨owners, values⟩)
  | (true, owners) =>
    if values.size < n ∧ valueLimit k ≤ n then (.error (refused k n), ⟨owners, values⟩)
    else (.ok (), ⟨owners, values⟩)

/-- Makes room for an entity among the owners and then for one more value. -/
def growFor (p : Pool k) (e : Entity) : Except Failure Unit × Pool k :=
  let ⟨owners, values⟩ := p
  match owners.tryReserve (e.index + 1) with
  | (false, owners) => (.error (refused k (e.index + 1)), ⟨owners, values⟩)
  | (true, owners) =>
    if valueLimit k ≤ values.size + 1 then (.error (refused k (e.index + 1)), ⟨owners, values⟩)
    else (.ok (), ⟨owners, values⟩)

def assign (p : Pool k) (e : Entity) (value : Value k) : Except Failure Unit × Pool k :=
  if p.has e then (.error (.alreadyAssigned e (name k)), p)
  else
    match p.growFor e with
    | (.error cause, p) => (.error cause, p)
    | (.ok (), ⟨owners, values⟩) => (.ok (), ⟨owners.insert e, values.push value⟩)

def replace (p : Pool k) (e : Entity) (value : Value k) :
    Except Failure (Value k) × Pool k :=
  match p.get? e with
  | none => (.error (.missingComponent e (name k)), p)
  | some old => (.ok old, p.modify e fun _ => value)

def assignOrReplace (p : Pool k) (e : Entity) (value : Value k) :
    Except Failure Unit × Pool k :=
  if p.has e then (.ok (), p.modify e fun _ => value) else p.assign e value

/-- Detaches the value of an entity, if it owns one; the last pair moves into its place. -/
def erase (p : Pool k) (e : Entity) : Pool k :=
  match p.owners.indexOf? e with
  | none => p
  | some slot =>
    let ⟨owners, values⟩ := p
    ⟨owners.eraseAt slot, swapRemove values slot⟩

def delete (p : Pool k) (e : Entity) : Option (Value k) × Pool k :=
  (p.get? e, p.erase e)

def clear (p : Pool k) : Pool k := { owners := p.owners.clear }

end Pool

end TickWorld
