import TickWorld.Drift.Drifter
import TickWorld.Drift.Report
import TickWorld.Registry.Selection
import TickWorld.Schedule

namespace TickWorld.Drift

variable {ε : Type} [DecidableEq ε] [ComponentKind ε]

structure Console where
  /-- The ticks between two reports; zero for no reports. -/
  interval : Nat
  /-- The ticks seen while active; a count of 64 bits agrees for fewer than `2 ^ 64` of them. -/
  ticks : Nat := 0
  last : Option Report := none

def Console.attach (c : Console) (r : Registry (Kind ε)) : Outcome (Registry (Kind ε)) Console :=
  ⟨c, r, #[.consoleAttached r.size c.interval]⟩

def Console.update (c : Console) (r : Registry (Kind ε)) : Outcome (Registry (Kind ε)) Console :=
  let ticks := c.ticks + 1
  if c.interval = 0 ∨ ticks % c.interval ≠ 0 then ⟨{ c with ticks }, r, #[]⟩
  else
    let report := Report.capture ticks r
    ⟨{ c with ticks, last := some report }, r, #[.worldReported ticks report.live report.pools]⟩

structure Spawner where
  perTick : UInt32
  /-- The seed of the next drifter. -/
  nextSeed : UInt32
  /-- How many drifters were spawned; a count of 64 bits agrees for fewer than `2 ^ 64` of them. -/
  spawned : Nat := 0

/-- Spawns up to `n` drifters. The first that is refused ends the tick, and its seed is kept. -/
def Spawner.spawnUpTo (s : Spawner) (r : Registry (Kind ε)) (events : Array Event) :
    (n : Nat) → Outcome (Registry (Kind ε)) Spawner
  | 0 => ⟨s, r, events⟩
  | n + 1 =>
    match spawn r s.nextSeed with
    | ⟨.error cause, r, more⟩ => ⟨s, r, (events ++ more).push (.spawnFailed cause)⟩
    | ⟨.ok _, r, more⟩ =>
      spawnUpTo { s with nextSeed := s.nextSeed + 1, spawned := s.spawned + 1 } r
        (events ++ more) n

def Spawner.update (s : Spawner) (r : Registry (Kind ε)) : Outcome (Registry (Kind ε)) Spawner :=
  s.spawnUpTo r #[] s.perTick.toNat

structure Movement where
  /-- Seconds per tick. -/
  step : Float32

def Position.advance (p : Position) (v : Velocity) (step : Float32) : Position :=
  ⟨p.x + v.dx * step, p.y + v.dy * step⟩

def Movement.update (m : Movement) (r : Registry (Kind ε)) :
    Outcome (Registry (Kind ε)) Movement :=
  (r.forEach [.position, .velocity] (fun s _ (.cons p (.cons v .nil)) =>
    (s, .cons (Position.advance p v m.step) (.cons v .nil))) ()).map fun _ => m

def addSaturating (a b : UInt32) : UInt32 :=
  if a.toNat + b.toNat < UInt32.size then a + b else 0xFFFFFFFF

def Mana.refill (m : Mana) : Mana :=
  { m with current := min (addSaturating m.current m.regen) m.max }

/-- Refills all mana, also that of entities that are not alive. -/
def refillMana (r : Registry (Kind ε)) : Registry (Kind ε) :=
  r.modifyPool .mana (·.map fun _ m => Mana.refill m)

structure Decay where
  /-- The entities to destroy in this tick. -/
  expired : Array Entity := #[]
  /-- How many entities were destroyed; a count of 64 bits agrees for fewer than `2 ^ 64`. -/
  destroyed : Nat := 0

def Lifetime.shorten (l : Lifetime) : Lifetime := ⟨if l.ticks = 0 then 0 else l.ticks - 1⟩

/-- Shortens every lifetime and lists the entities whose lifetime is over, after those in
`expired`. -/
def shortenLifetimes (expired : Array Entity) (r : Registry (Kind ε)) :
    Outcome (Registry (Kind ε)) (Array Entity) :=
  (r.forEach [.lifetime] (fun expired e (.cons l .nil) =>
    let l := Lifetime.shorten l
    (if l.ticks = 0 then expired.push e else expired, .cons l .nil)) expired).map (·.2)

/-- The list is empty again after the update, also if its entities were not destroyed. -/
def Decay.update (d : Decay) (r : Registry (Kind ε)) : Outcome (Registry (Kind ε)) Decay :=
  (shortenLifetimes d.expired r).bind fun expired r =>
    match r.destroyMany expired.toList with
    | ⟨.ok count, r, events⟩ => ⟨⟨#[], d.destroyed + count⟩, r, events⟩
    | ⟨.error cause, r, events⟩ => ⟨⟨#[], d.destroyed⟩, r, events.push (.decayFailed cause)⟩

/-- The kinds of system of a world with drifting entities, and those of a further family. -/
inductive Role (σ : Type) where
  | console | spawner | movement | manaRegen | decay
  | other (s : σ)
deriving DecidableEq

variable {σ : Type} [SystemKind σ]

@[reducible] def Role.State : Role σ → Type
  | console => Console
  | spawner => Spawner
  | movement => Movement
  | manaRegen => Unit
  | decay => Decay
  | other s => SystemKind.State s

def Role.name : Role σ → String
  | console => "indie::gameplay::systems::ConsoleReporter"
  | spawner => "indie::gameplay::systems::Spawner"
  | movement => "indie::gameplay::systems::Movement"
  | manaRegen => "indie::gameplay::systems::ManaRegen"
  | decay => "indie::gameplay::systems::Decay"
  | other s => SystemKind.kindName s

@[reducible] instance : SystemKind (Role σ) where
  State := Role.State
  kindName := Role.name
  systemName
    | .other s, state => SystemKind.systemName s state
    | role, _ => role.name

def Role.attach [SystemBehavior (Kind ε) σ] : (role : Role σ) → role.State →
    Registry (Kind ε) → Outcome (Registry (Kind ε)) role.State
  | console, c, r => c.attach r
  | other s, state, r => SystemBehavior.attach s state r
  | spawner, state, r => ⟨state, r, #[]⟩
  | movement, state, r => ⟨state, r, #[]⟩
  | manaRegen, state, r => ⟨state, r, #[]⟩
  | decay, state, r => ⟨state, r, #[]⟩

def Role.update [SystemBehavior (Kind ε) σ] : (role : Role σ) → role.State →
    Registry (Kind ε) → Outcome (Registry (Kind ε)) role.State
  | console, c, r => c.update r
  | spawner, s, r => s.update r
  | movement, m, r => m.update r
  | manaRegen, (), r => ⟨(), refillMana r, #[]⟩
  | decay, d, r => d.update r
  | other s, state, r => SystemBehavior.update s state r

instance [SystemBehavior (Kind ε) σ] : SystemBehavior (Kind ε) (Role σ) where
  attach := Role.attach
  update := Role.update

instance : SystemKind Empty where
  State := nofun
  kindName := nofun
  systemName := nofun

instance : SystemBehavior (Kind ε) Empty where
  attach := nofun
  update := nofun

end TickWorld.Drift
