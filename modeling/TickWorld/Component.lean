import TickWorld.Storage.SparseSet

namespace TickWorld

/-- A family of component kinds: what their values are, how messages name them, and from how many
values on the allocator refuses an array of them. -/
class ComponentKind (κ : Type) where
  Value : κ → Type
  name : κ → String
  valueLimit : κ → Nat := fun _ => slotLimit

export ComponentKind (Value)

variable {κ : Type}

/-- One value for each kind of a list, in its order. -/
inductive Row (V : κ → Type) : List κ → Type where
  | nil : Row V []
  | cons {k : κ} {q : List κ} (value : V k) (rest : Row V q) : Row V (k :: q)

structure Bound (κ : Type) [ComponentKind κ] where
  kind : κ
  value : Value kind

/-- The first kind of a list that occurs in `seen` or earlier in the list. -/
def firstRepeat? [DecidableEq κ] (seen : List κ) : List κ → Option κ
  | [] => none
  | k :: q => if k ∈ seen then some k else firstRepeat? (k :: seen) q

end TickWorld
