import TickWorld.Console.QuitLine
import TickWorld.Drift.Behavior
import TickWorld.Settings.Basic
import TickWorld.Simulation.Stats

namespace TickWorld

open Drift (Kind Role)

/-- A simulation, which may run until its flag drops, and what is known of its ticks so far. -/
structure Simulation where
  settings : Settings
  running : Bool := true
  stats : TickStats := {}

namespace Simulation

variable {ε σ : Type} [DecidableEq ε] [ComponentKind ε] [DecidableEq σ] [SystemKind σ]
  [SystemBehavior (Kind ε) σ]

def stop (sim : Simulation) : Simulation := { sim with running := false }

/-- Reads console input up to a quit line, which lets the flag drop. -/
def readConsole (sim : Simulation) (bytes : List UInt8) : Console.Search × Simulation :=
  let search := Console.searchQuit bytes
  (search, if search.found then sim.stop else sim)

def tickBudget (sim : Simulation) : Option Nat :=
  if sim.settings.tickRate = 0 then none
  else some (1000000000 / sim.settings.tickRate.toNat)

/-- The seconds that one tick stands for: a sixtieth if the simulation is not paced. -/
def tickSeconds (settings : Settings) : Float32 :=
  if settings.tickRate = 0 then 1.0 / 60.0 else 1.0 / settings.tickRate.toFloat32

def installSystems (settings : Settings) (x : Schedule (Kind ε) (Role σ)) :
    Outcome (Schedule (Kind ε) (Role σ)) Unit :=
  (x.add .console { interval := settings.reportInterval.toNat }).bind fun _ x =>
  (x.add .spawner { perTick := settings.spawnPerTick, nextSeed := settings.spawnCount }).bind
    fun _ x =>
  (x.add .movement { step := tickSeconds settings }).bind fun _ x =>
  (x.add .manaRegen ()).bind fun _ x =>
  x.add .decay {}

def prepare (sim : Simulation) (r : Registry (Kind ε)) :
    Outcome (Schedule (Kind ε) (Role σ)) Unit :=
  (installSystems sim.settings (.ofRegistry r)).bind fun _ x =>
    ⟨(), x, #[.loopStarted x.size sim.settings.tickRate.toNat sim.settings.maxTicks.toNat]⟩

def continues (sim : Simulation) (ticks : Nat) : Bool :=
  (sim.settings.maxTicks = 0 || ticks < sim.settings.maxTicks.toNat) && sim.running

def overruns (sim : Simulation) (elapsed : Nat) : Bool := sim.tickBudget.any (· < elapsed)

/-- How many nanoseconds of a tick are left after its update, if it is paced and in time. -/
def pause? (sim : Simulation) (elapsed : Nat) : Option Nat :=
  match sim.tickBudget with
  | some budget => if sim.overruns elapsed then none else some (budget - elapsed)
  | none => none

def account (sim : Simulation) (x : Schedule (Kind ε) (Role σ)) (elapsed : Nat) :
    Simulation × Array Event :=
  let micros := min (elapsed / 1000) microsLimit
  let budget := sim.tickBudget
  let stats := sim.stats.record ⟨x.ticks, micros, x.registry.size⟩ budget
  let late :=
    if sim.overruns elapsed && sim.settings.timingLogs then
      #[.budgetExceeded x.ticks micros (budget.getD 0 / 1000)]
    else #[]
  ({ sim with stats }, late)

def runTicks (elapsed : Nat → Nat) (sim : Simulation) (x : Schedule (Kind ε) (Role σ))
    (events : Array Event) :
    (n : Nat) → Outcome (Simulation × Schedule (Kind ε) (Role σ)) Unit
  | 0 => ⟨(), (sim, x), events⟩
  | n + 1 =>
    if sim.continues x.ticks then
      let ⟨_, x, ticked⟩ := x.update
      let (sim, late) := sim.account x (elapsed x.ticks)
      runTicks elapsed sim x (events ++ ticked ++ late) n
    else ⟨(), (sim, x), events⟩

def isEndless (sim : Simulation) : Bool := sim.settings.maxTicks = 0 && sim.running

def finish (elapsed : Nat → Nat) (sim : Simulation) (x : Schedule (Kind ε) (Role σ)) :
    Outcome (Simulation × Registry (Kind ε)) Unit :=
  let ⟨_, (sim, x), events⟩ := runTicks elapsed sim x #[] sim.settings.maxTicks.toNat
  ⟨(), (sim, x.registry), events.push (.loopStopped x.ticks x.registry.size)⟩

/-- Populates a registry and runs to the end. There is no outcome if the simulation never ends. The
clock is an input: the update of tick `n` takes `elapsed n` nanoseconds, counted from tick one. -/
def run? (elapsed : Nat → Nat) (sim : Simulation) (r : Registry (Kind ε)) :
    Option (Outcome (Simulation × Registry (Kind ε)) (Except SetupFailure Unit)) :=
  match Drift.seedWorld r sim.settings.spawnCount with
  | ⟨.error cause, r, events⟩ => some ⟨.error (.refused cause), (sim, r), events⟩
  | ⟨.ok _, r, events⟩ =>
    if sim.isEndless then none
    else
      let prepared : Outcome (Schedule (Kind ε) (Role Empty)) Unit := prepare sim r
      let finished := finish elapsed sim prepared.state
      some ((finished.map fun _ => .ok ()).after (events ++ prepared.events))

end Simulation

end TickWorld
