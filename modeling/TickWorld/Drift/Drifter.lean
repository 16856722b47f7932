import TickWorld.Drift.Component
import TickWorld.Registry.Component

namespace TickWorld.Drift

variable {ε : Type} [DecidableEq ε] [ComponentKind ε]

def minLifetime : UInt32 := 30

def lifetimeSpread : UInt32 := 90

def lifetimeOf (seed : UInt32) : Lifetime := ⟨minLifetime + seed % lifetimeSpread⟩

/-- The components of the drifter with a given seed, in the order in which it gets them. Every
third drifter has mana. -/
def drifterComponents (seed : UInt32) : List (Bound (Kind ε)) :=
  [ ⟨.position, ⟨(seed % 64).toFloat32, (seed / 64 % 64).toFloat32⟩⟩,
    ⟨.velocity, ⟨(seed % 7).toFloat32 - 3.0, (seed % 5).toFloat32 - 2.0⟩⟩,
    ⟨.lifetime, lifetimeOf seed⟩,
    ⟨.health, Health.full 100⟩ ]
  ++ if seed % 3 = 0 then [⟨.mana, ⟨0, 50, 2⟩⟩] else []

/-- Attaches components to an entity, up to the first that is refused. -/
def assignAll {κ : Type} [DecidableEq κ] [ComponentKind κ] (r : Registry κ) (e : Entity) :
    List (Bound κ) → Outcome (Registry κ) (Except Failure Unit)
  | [] => ⟨.ok (), r, #[]⟩
  | ⟨k, value⟩ :: rest =>
    (r.assign e k value).bind fun result r =>
      match result with
      | .error cause => ⟨.error cause, r, #[]⟩
      | .ok () => assignAll r e rest

/-- Creates the drifter with a given seed. If a component is refused, the entity stays with the
components that it got before. -/
def spawn (r : Registry (Kind ε)) (seed : UInt32) :
    Outcome (Registry (Kind ε)) (Except Failure Entity) :=
  r.create.bind fun result r =>
    match result with
    | .error cause => ⟨.error cause, r, #[]⟩
    | .ok e => (assignAll r e (drifterComponents seed)).map (·.map fun _ => e)

/-- Creates `n` drifters with successive seeds from `seed` on, after those in `spawned`. -/
def spawnFrom (seed : UInt32) (spawned : Array Entity) (r : Registry (Kind ε))
    (events : Array Event) : (n : Nat) → Outcome (Registry (Kind ε)) (Except Failure (Array Entity))
  | 0 => ⟨.ok spawned, r, events⟩
  | n + 1 =>
    match spawn r seed with
    | ⟨.error cause, r, more⟩ => ⟨.error cause, r, events ++ more⟩
    | ⟨.ok e, r, more⟩ => spawnFrom (seed + 1) (spawned.push e) r (events ++ more) n

def seedWorld (r : Registry (Kind ε)) (count : UInt32) :
    Outcome (Registry (Kind ε)) (Except Failure (Array Entity)) :=
  (spawnFrom 0 #[] r #[] count.toNat).bind fun result r =>
    match result with
    | .error cause => ⟨.error cause, r, #[]⟩
    | .ok spawned => ⟨.ok spawned, r, #[.worldSeeded count.toNat r.size]⟩

end TickWorld.Drift
