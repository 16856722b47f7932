import Mathlib.Logic.Function.Iterate
import TickWorld.Simulation.Basic

namespace TickWorld

open Drift (Kind Role seedWorld)

namespace Schedule

variable {κ σ : Type} [ComponentKind κ] [SystemKind σ] [SystemBehavior κ σ]

def updates (x : Schedule κ σ) (n : Nat) : Schedule κ σ := (fun x => x.update.state)^[n] x

theorem updates_succ (x : Schedule κ σ) (n : Nat) :
    x.updates (n + 1) = x.update.state.updates n := rfl

end Schedule

namespace Simulation

variable {ε : Type} [DecidableEq ε] [ComponentKind ε]

section

variable {σ : Type} [SystemKind σ] [SystemBehavior (Kind ε) σ]

theorem runTicks_of_running (elapsed : Nat → Nat) (n : Nat) (sim : Simulation)
    (x : Schedule (Kind ε) (Role σ)) (events : Array Event) (hup : sim.running = true)
    (hmax : sim.settings.maxTicks ≠ 0) (hn : x.ticks + n = sim.settings.maxTicks.toNat) :
    (runTicks elapsed sim x events n).state.2 = x.updates n ∧
      (runTicks elapsed sim x events n).state.1.stats.ticks = sim.stats.ticks + n ∧
      (0 < n → (runTicks elapsed sim x events n).state.1.stats.lastLive =
        (x.updates n).registry.size) := by
  induction n generalizing sim x events with
  | zero => exact ⟨rfl, rfl, fun hz => absurd hz (Nat.lt_irrefl 0)⟩
  | succ n ih =>
    have hc : sim.continues x.ticks = true := by
      simp only [continues, hmax, hup, decide_false, Bool.false_or, Bool.and_true,
        decide_eq_true_eq]
      omega
    have hticks : x.update.state.ticks + n = sim.settings.maxTicks.toNat := by
      have hx : x.update.state.ticks = x.ticks + 1 := rfl
      omega
    obtain ⟨hstate, hstats, hlive⟩ := ih
      (sim.account x.update.state (elapsed x.update.state.ticks)).1 x.update.state
      (events ++ x.update.events ++
        (sim.account x.update.state (elapsed x.update.state.ticks)).2) hup hmax hticks
    rw [runTicks, if_pos hc, Schedule.updates_succ]
    refine ⟨hstate, hstats.trans ?_, fun _ => ?_⟩
    · exact Nat.add_right_comm sim.stats.ticks 1 n
    · cases n with
      | zero => rfl
      | succ n => exact hlive (Nat.succ_pos n)

end

/-- The schedule that a run begins with: its registry is populated already. -/
def launched (sim : Simulation) (r : Registry (Kind ε)) : Schedule (Kind ε) (Role Empty) :=
  (prepare sim (seedWorld r sim.settings.spawnCount).state).state

theorem run?_of_seeded {sim : Simulation} {r : Registry (Kind ε)} {es : Array Entity}
    (elapsed : Nat → Nat) (hok : (seedWorld r sim.settings.spawnCount).result = .ok es)
    (hend : sim.isEndless = false) :
    ∃ o, sim.run? elapsed r = some o ∧ o.result = .ok () ∧
      o.state = ((runTicks elapsed sim (sim.launched r) #[] sim.settings.maxTicks.toNat).state.1,
        (runTicks elapsed sim (sim.launched r) #[] sim.settings.maxTicks.toNat).state.2.registry) ∧
      o.events.back? = some (.loopStopped
        (runTicks elapsed sim (sim.launched r) #[] sim.settings.maxTicks.toNat).state.2.ticks
        o.state.2.size) := by
  rw [run?]
  split
  · rename_i he
    rw [he] at hok
    cases hok
  · rename_i r' events he
    have hr : sim.launched r = (prepare sim r').state := by
      rw [launched, he]
    rw [hend, if_neg Bool.false_ne_true, hr]
    refine ⟨_, rfl, rfl, rfl, ?_⟩
    simp only [Outcome.after, Outcome.map, finish, Array.append_push, Array.back?_push]

end Simulation

end TickWorld
