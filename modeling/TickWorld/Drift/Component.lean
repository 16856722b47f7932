import TickWorld.Component

namespace TickWorld.Drift

structure Position where
  x : Float32
  y : Float32

def Position.distanceSquared (a b : Position) : Float32 :=
  let dx := a.x - b.x
  let dy := a.y - b.y
  dx * dx + dy * dy

structure Velocity where
  dx : Float32
  dy : Float32

structure Health where
  current : UInt32
  max : UInt32
deriving DecidableEq

def Health.full (max : UInt32) : Health := ⟨max, max⟩

structure Mana where
  current : UInt32
  max : UInt32
  /-- The mana restored per tick. -/
  regen : UInt32
deriving DecidableEq

/-- The ticks left before an entity is destroyed. -/
structure Lifetime where
  ticks : UInt32
deriving DecidableEq

/-- The kinds of component of a world with drifting entities, and those of a further family. -/
inductive Kind (ε : Type) where
  | position | velocity | health | mana | lifetime
  | other (k : ε)
deriving DecidableEq

variable {ε : Type} [ComponentKind ε]

@[reducible] def Kind.Value : Kind ε → Type
  | position => Position
  | velocity => Velocity
  | health => Health
  | mana => Mana
  | lifetime => Lifetime
  | other k => ComponentKind.Value k

def Kind.name : Kind ε → String
  | position => "indie::gameplay::components::Position"
  | velocity => "indie::gameplay::components::Velocity"
  | health => "indie::gameplay::components::Health"
  | mana => "indie::gameplay::components::Mana"
  | lifetime => "indie::gameplay::components::Lifetime"
  | other k => ComponentKind.name k

def Kind.valueLimit : Kind ε → Nat
  | other k => ComponentKind.valueLimit k
  | _ => slotLimit

@[reducible] instance : ComponentKind (Kind ε) where
  Value := Kind.Value
  name := Kind.name
  valueLimit := Kind.valueLimit

instance : ComponentKind Empty where
  Value := nofun
  name := nofun

end TickWorld.Drift
