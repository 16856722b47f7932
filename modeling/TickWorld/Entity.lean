namespace TickWorld

/-- A handle naming an entity by its number. -/
structure Entity where
  raw : UInt32
deriving DecidableEq

namespace Entity

def null : Entity := ⟨0xFFFFFFFF⟩

instance : Inhabited Entity := ⟨null⟩

instance : Ord Entity := ⟨fun a b => compare a.raw b.raw⟩

def ofNat (n : Nat) : Entity := ⟨UInt32.ofNat n⟩

def index (e : Entity) : Nat := e.raw.toNat

def isNull (e : Entity) : Bool := e = null

def display (e : Entity) : String :=
  if e.isNull then "Entity(null)" else "Entity(" ++ toString e.index ++ ")"

def debug (e : Entity) : String := "Entity(" ++ toString e.index ++ ")"

theorem index_lt (e : Entity) : e.index < 0x100000000 := e.raw.toNat_lt

theorem index_null : null.index = 0xFFFFFFFF := rfl

theorem index_inj {a b : Entity} (h : a.index = b.index) : a = b := by
  cases a
  cases b
  exact congrArg Entity.mk (UInt32.toNat_inj.mp h)

theorem index_ofNat {n : Nat} (h : n < 0x100000000) : (ofNat n).index = n :=
  UInt32.toNat_ofNat_of_lt' h

end Entity

end TickWorld
