import TickWorld.Proofs.Simulation.Population

namespace TickWorld

open Drift (Kind Role)

/-- The end of the microsecond in which a budget ends, both in nanoseconds. -/
def nextMicro (budget : Nat) : Nat := (budget / 1000 + 1) * 1000

theorem lt_nextMicro (budget : Nat) : budget < nextMicro budget := by
  rw [nextMicro]
  omega

theorem nextMicro_le_iff {budget elapsed : Nat} :
    nextMicro budget ≤ elapsed ↔ budget / 1000 < elapsed / 1000 := by
  rw [nextMicro]
  omega

/-- Microseconds tell as much as nanoseconds only of a budget that ends with its microsecond. -/
theorem nextMicro_eq_iff {budget : Nat} : nextMicro budget = budget + 1 ↔ budget % 1000 = 999 := by
  rw [nextMicro]
  omega

namespace Simulation

variable {ε σ : Type} [DecidableEq ε] [ComponentKind ε] [SystemKind σ]
  [SystemBehavior (Kind ε) σ] {sim : Simulation} {budget : Nat}

theorem tickBudget_of_paced (hp : sim.settings.tickRate ≠ 0) :
    sim.tickBudget = some (1000000000 / sim.settings.tickRate.toNat) := if_neg hp

theorem budget_le (hb : sim.tickBudget = some budget) : budget ≤ 1000000000 := by
  rw [tickBudget] at hb
  split at hb
  · cases hb
  · cases hb
    exact Nat.div_le_self _ _

theorem overruns_iff (hb : sim.tickBudget = some budget) (elapsed : Nat) :
    sim.overruns elapsed = true ↔ budget < elapsed := by
  rw [overruns, hb]
  exact decide_eq_true_iff

theorem pause?_eq (hb : sim.tickBudget = some budget) (elapsed : Nat) :
    sim.pause? elapsed = if sim.overruns elapsed then none else some (budget - elapsed) := by
  rw [pause?, hb]

omit [DecidableEq ε] [SystemBehavior (Kind ε) σ] in
theorem late_iff (sim : Simulation) (x : Schedule (Kind ε) (Role σ)) (elapsed : Nat) :
    (sim.account x elapsed).2 ≠ #[] ↔
      sim.overruns elapsed = true ∧ sim.settings.timingLogs = true := by
  rw [account, ← Bool.and_eq_true]
  cases sim.overruns elapsed && sim.settings.timingLogs with
  | false => simp
  | true => simp

omit [DecidableEq ε] [SystemBehavior (Kind ε) σ] in
/-- The time that is recorded is cut at the greatest number, which is beyond every budget. -/
theorem overBudget_account (hb : sim.tickBudget = some budget) (x : Schedule (Kind ε) (Role σ))
    (elapsed : Nat) :
    (sim.account x elapsed).1.stats.overBudget =
      sim.stats.overBudget + (decide (nextMicro budget ≤ elapsed)).toNat := by
  have hle := budget_le hb
  have hmicros : budget / 1000 < min (elapsed / 1000) microsLimit ↔ nextMicro budget ≤ elapsed := by
    rw [nextMicro_le_iff, microsLimit]
    omega
  simp only [account, TickStats.record, hb, Option.any_some, hmicros]
  by_cases h : nextMicro budget ≤ elapsed
  · rw [decide_eq_true h, if_pos rfl, Bool.toNat_true]
  · rw [decide_eq_false h, if_neg Bool.false_ne_true, Bool.toNat_false, Nat.add_zero]

theorem overruns_of_nextMicro_le (hb : sim.tickBudget = some budget) {elapsed : Nat}
    (hn : nextMicro budget ≤ elapsed) : sim.overruns elapsed = true :=
  (overruns_iff hb elapsed).mpr ((lt_nextMicro budget).trans_le hn)

omit [DecidableEq ε] [SystemBehavior (Kind ε) σ] in
theorem overBudget_eq_overruns_iff (hb : sim.tickBudget = some budget)
    (x : Schedule (Kind ε) (Role σ)) :
    (∀ elapsed, (sim.account x elapsed).1.stats.overBudget =
      sim.stats.overBudget + (sim.overruns elapsed).toNat) ↔ budget % 1000 = 999 := by
  rw [← nextMicro_eq_iff]
  constructor
  · intro h
    -- The shortest overrun is counted.
    have hlate := (overruns_iff hb _).mpr (Nat.lt_add_one budget)
    have hcount := h (budget + 1)
    rw [overBudget_account hb, hlate, Nat.add_left_cancel_iff, Bool.toNat_true,
      Bool.toNat_eq_one, decide_eq_true_iff] at hcount
    exact Nat.le_antisymm hcount (lt_nextMicro budget)
  · intro h elapsed
    rw [overBudget_account hb, h]
    congr 2
    rw [Bool.eq_iff_iff, overruns_iff hb, decide_eq_true_iff, Nat.succ_le_iff]

/-- The statistics have taken a list of ticks into account, each with the time its update took. -/
structure Tallied (budget : Nat) (elapsed : Nat → Nat) (sim sim' : Simulation)
    (ticks : List Nat) : Prop where
  recorded : sim'.stats.ticks = sim.stats.ticks + ticks.length
  counted : sim'.stats.overBudget =
    sim.stats.overBudget + ticks.countP fun tick => nextMicro budget ≤ elapsed tick

theorem Tallied.le_overran (hb : sim.tickBudget = some budget) {elapsed : Nat → Nat}
    {sim' : Simulation} {ticks : List Nat} (h : Tallied budget elapsed sim sim' ticks) :
    sim'.stats.overBudget ≤
      sim.stats.overBudget + ticks.countP fun tick => sim.overruns (elapsed tick) := by
  rw [h.counted]
  apply Nat.add_le_add_left
  apply List.countP_mono_left
  intro tick _ hn
  exact overruns_of_nextMicro_le hb (of_decide_eq_true hn)

omit [DecidableEq ε] [SystemBehavior (Kind ε) σ] in
theorem tallied_account (hb : sim.tickBudget = some budget) (elapsed : Nat → Nat)
    (x : Schedule (Kind ε) (Role σ)) {sim' : Simulation} {ticks : List Nat}
    (h : Tallied budget elapsed (sim.account x (elapsed x.ticks)).1 sim' ticks) :
    Tallied budget elapsed sim sim' (x.ticks :: ticks) where
  recorded := by
    rw [h.recorded, List.length_cons]
    exact Nat.add_right_comm sim.stats.ticks 1 ticks.length
  counted := by
    rw [h.counted, overBudget_account hb, List.countP_cons, Nat.add_assoc]
    congr 1
    rw [Nat.add_comm]
    congr 1
    cases decide (nextMicro budget ≤ elapsed x.ticks) <;> rfl

theorem tallied_runTicks (hb : sim.tickBudget = some budget) (elapsed : Nat → Nat) (n : Nat)
    (x : Schedule (Kind ε) (Role σ)) (events : Array Event) :
    ∃ m, (runTicks elapsed sim x events n).state.2.ticks = x.ticks + m ∧
      Tallied budget elapsed sim (runTicks elapsed sim x events n).state.1
        (List.range' (x.ticks + 1) m) := by
  induction n generalizing sim x events with
  | zero => exact ⟨0, rfl, rfl, rfl⟩
  | succ n ih =>
    rw [runTicks]
    split
    · have hx : x.update.state.ticks = x.ticks + 1 := rfl
      have hb' : (sim.account x.update.state (elapsed x.update.state.ticks)).1.tickBudget =
        some budget := hb
      obtain ⟨m, hticks, ht⟩ := ih hb' x.update.state
        (events ++ x.update.events ++
          (sim.account x.update.state (elapsed x.update.state.ticks)).2)
      refine ⟨m + 1, hticks.trans ?_, ?_⟩
      · rw [hx, Nat.add_assoc, Nat.add_comm 1]
      · rw [List.range'_succ]
        exact tallied_account hb elapsed x.update.state ht
    · exact ⟨0, rfl, rfl, rfl⟩

theorem tallied_run? (hb : sim.tickBudget = some budget) {elapsed : Nat → Nat}
    {r : Registry (Kind ε)}
    {o : Outcome (Simulation × Registry (Kind ε)) (Except SetupFailure Unit)}
    (ho : sim.run? elapsed r = some o) :
    ∃ m, Tallied budget elapsed sim o.state.1 (List.range' 1 m) := by
  rw [run?] at ho
  split at ho
  · cases ho
    exact ⟨0, rfl, rfl⟩
  · rename_i r events _
    split at ho
    · cases ho
    · cases ho
      obtain ⟨-, hmanned⟩ := manned_prepare sim r
      obtain ⟨m, -, ht⟩ := tallied_runTicks (σ := Empty) hb elapsed
        sim.settings.maxTicks.toNat (prepare sim r).state #[]
      rw [hmanned.ticks] at ht
      exact ⟨m, ht⟩

/-- A paced tick overruns if its update took longer than the budget; it is counted only from the
next whole microsecond on, in a run of any length. -/
theorem overruns_counted_in_micros (hp : sim.settings.tickRate ≠ 0) :
    ∃ budget, budget = 1000000000 / sim.settings.tickRate.toNat ∧
      sim.tickBudget = some budget ∧
      (∀ elapsed, (sim.overruns elapsed = true ↔ budget < elapsed) ∧
        sim.pause? elapsed = if sim.overruns elapsed then none else some (budget - elapsed)) ∧
      (∀ (x : Schedule (Kind ε) (Role σ)) elapsed,
        ((sim.account x elapsed).2 ≠ #[] ↔
          sim.overruns elapsed = true ∧ sim.settings.timingLogs = true) ∧
        (sim.account x elapsed).1.stats.overBudget =
          sim.stats.overBudget + (decide (nextMicro budget ≤ elapsed)).toNat ∧
        (nextMicro budget ≤ elapsed → sim.overruns elapsed = true)) ∧
      (∀ x : Schedule (Kind ε) (Role σ), (∀ elapsed,
        (sim.account x elapsed).1.stats.overBudget =
          sim.stats.overBudget + (sim.overruns elapsed).toNat) ↔ budget % 1000 = 999) ∧
      (∀ elapsed n (x : Schedule (Kind ε) (Role σ)) events,
        ∃ m, (runTicks elapsed sim x events n).state.2.ticks = x.ticks + m ∧
          Tallied budget elapsed sim (runTicks elapsed sim x events n).state.1
            (List.range' (x.ticks + 1) m)) ∧
      (∀ elapsed (r : Registry (Kind ε)) o, sim.run? elapsed r = some o →
        ∃ m, Tallied budget elapsed sim o.state.1 (List.range' 1 m)) ∧
      ∀ elapsed sim' ticks, Tallied budget elapsed sim sim' ticks →
        sim'.stats.overBudget ≤
          sim.stats.overBudget + ticks.countP fun tick => sim.overruns (elapsed tick) := by
  have hb := tickBudget_of_paced hp
  refine ⟨_, rfl, hb, fun elapsed => ⟨overruns_iff hb elapsed, pause?_eq hb elapsed⟩, ?_,
    overBudget_eq_overruns_iff hb, fun elapsed n x events => tallied_runTicks hb elapsed n x events,
    fun _ _ _ ho => tallied_run? hb ho, fun _ _ _ ht => ht.le_overran hb⟩
  intro x elapsed
  exact ⟨sim.late_iff x elapsed, overBudget_account hb x elapsed, overruns_of_nextMicro_le hb⟩

/-- At three ticks a second the budget ends within a microsecond. The first of three ticks overruns
it within that microsecond, the second later, the third is in time. -/
theorem overruns_counted_in_micros_third :
    ∃ (sim : Simulation) (elapsed : Nat → Nat)
      (o : Outcome (Simulation × Registry (Kind Empty)) (Except SetupFailure Unit)),
      sim.settings.tickRate = 3 ∧ sim.settings.tickRate ≠ 0 ∧ elapsed 1 = 333333500 ∧
      sim.tickBudget = some 333333333 ∧ sim.overruns (elapsed 1) = true ∧
      sim.pause? (elapsed 1) = none ∧
      (∀ x : Schedule (Kind Empty) (Role Empty),
        (sim.account x (elapsed 1)).1.stats.overBudget = sim.stats.overBudget) ∧
      sim.run? elapsed {} = some o ∧ o.state.1.stats.ticks = 3 ∧
      (List.range' 1 3).countP (fun tick => sim.overruns (elapsed tick)) = 2 ∧
      o.state.1.stats.overBudget = 1 := by
  let sim : Simulation := { settings := { tickRate := 3, maxTicks := 3, spawnCount := 0 } }
  let elapsed : Nat → Nat
    | 1 => 333333500
    | 2 => 400000000
    | _ => 100
  let r : Registry (Kind Empty) := {}
  have hp : sim.settings.tickRate ≠ 0 := by decide
  obtain ⟨budget, hbudget, hb, htick, hcount, -, -, hrun, -⟩ :=
    overruns_counted_in_micros (ε := Empty) (σ := Empty) hp
  obtain rfl : budget = 333333333 := hbudget.trans (by decide)
  obtain ⟨hover, hpause⟩ := htick (elapsed 1)
  have hlate : sim.overruns (elapsed 1) = true := hover.mpr (by decide)
  have hseed : (Drift.seedWorld r sim.settings.spawnCount).result = .ok #[] := rfl
  obtain ⟨o, ho, -, hstate, -⟩ := run?_of_seeded elapsed hseed rfl
  have hx : (sim.launched r).ticks + 3 = sim.settings.maxTicks.toNat :=
    congrArg (· + 3) (manned_prepare sim r).2.ticks
  have hticks : o.state.1.stats.ticks = 3 := by
    rw [hstate]
    exact (runTicks_of_running elapsed 3 sim (sim.launched r) #[] rfl (by decide) hx).2.1
  obtain ⟨m, ht⟩ := hrun elapsed r o ho
  obtain rfl : m = 3 := by
    have hm := ht.recorded
    rw [hticks, List.length_range'] at hm
    exact (hm.trans (Nat.zero_add m)).symm
  refine ⟨sim, elapsed, o, rfl, hp, rfl, hb, hlate, ?_, ?_, ho, hticks, ?_, ?_⟩
  · rw [hpause, if_pos hlate]
  · intro x
    exact (hcount x (elapsed 1)).2.1
  · decide
  · rw [ht.counted]
    decide

end Simulation

end TickWorld
