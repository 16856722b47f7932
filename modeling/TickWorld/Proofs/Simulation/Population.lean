import TickWorld.Proofs.Drift.Brood
import TickWorld.Proofs.Simulation.Run

namespace TickWorld

open Drift

namespace Schedule

variable {κ σ : Type} [ComponentKind κ] [SystemKind σ] [SystemBehavior κ σ]

theorem add_of_new [DecidableEq σ] {x : Schedule κ σ} {s : σ} (hp : x.position? s = none)
    (state : SystemKind.State s) :
    (x.add s state).state =
      ⟨(SystemBehavior.attach s state x.registry).state,
        x.slots ++ [some ⟨s, (SystemBehavior.attach s state x.registry).result, true⟩],
        (s, x.slots.length) :: x.index, x.ticks⟩ := by
  obtain ⟨registry, slots, index, ticks⟩ := x
  have hp' : index.lookup s = none := hp
  simp only [add, place, position?, hp']

theorem runSlots_nil (r : Registry κ) :
    runSlots r ([] : List (Option (Installed σ))) = ⟨[], r, #[]⟩ := rfl

theorem runSlots_active (s : σ) (state : SystemKind.State s) (r : Registry κ)
    (slots : List (Option (Installed σ))) :
    (runSlots r (some ⟨s, state, true⟩ :: slots)).state =
        (runSlots (SystemBehavior.update s state r).state slots).state ∧
      (runSlots r (some ⟨s, state, true⟩ :: slots)).result =
        some ⟨s, (SystemBehavior.update s state r).result, true⟩ ::
          (runSlots (SystemBehavior.update s state r).state slots).result := ⟨rfl, rfl⟩

end Schedule

namespace Simulation

variable {ε : Type} [DecidableEq ε] [ComponentKind ε]

def crew (c : Console) (s : Spawner) (m : Movement) (d : Decay) :
    List (Option (Installed (Role Empty))) :=
  [some ⟨.console, c, true⟩, some ⟨.spawner, s, true⟩, some ⟨.movement, m, true⟩,
    some ⟨.manaRegen, (), true⟩, some ⟨.decay, d, true⟩]

/-- A schedule at tick `n`: its crew is complete, the spawner has come as far as the ticks and no
entity waits to be destroyed. -/
structure Manned (settings : Settings) (n : Nat) (x : Schedule (Kind ε) (Role Empty)) : Prop where
  ticks : x.ticks = n
  slots : ∃ console s d, x.slots = crew console s ⟨tickSeconds settings⟩ d ∧
    d.expired = #[] ∧ s.perTick = settings.spawnPerTick ∧
    s.nextSeed = .ofNat (settings.spawnCount.toNat + n * settings.spawnPerTick.toNat)

theorem manned_prepare (sim : Simulation) (r : Registry (Kind ε)) :
    (prepare sim r : Outcome (Schedule (Kind ε) (Role Empty)) Unit).state.registry = r ∧
      Manned sim.settings 0
        (prepare sim r : Outcome (Schedule (Kind ε) (Role Empty)) Unit).state := by
  have hp : ∃ index, (prepare sim r : Outcome (Schedule (Kind ε) (Role Empty)) Unit).state =
      ⟨r, crew { interval := sim.settings.reportInterval.toNat }
        { perTick := sim.settings.spawnPerTick, nextSeed := sim.settings.spawnCount }
        ⟨tickSeconds sim.settings⟩ {}, index, 0⟩ := by
    simp only [prepare, installSystems, Outcome.bind]
    rw [Schedule.add_of_new, Schedule.add_of_new, Schedule.add_of_new, Schedule.add_of_new,
      Schedule.add_of_new]
    · exact ⟨_, rfl⟩
    all_goals rfl
  have hseed : sim.settings.spawnCount =
      .ofNat (sim.settings.spawnCount.toNat + 0 * sim.settings.spawnPerTick.toNat) := by
    rw [Nat.zero_mul, Nat.add_zero, UInt32.ofNat_toNat]
  obtain ⟨index, hp⟩ := hp
  rw [hp]
  exact ⟨rfl, rfl, _, _, _, rfl, rfl, rfl, hseed⟩

theorem state_console (c : Console) (r : Registry (Kind ε)) : (c.update r).state = r := by
  rw [Console.update]
  split <;> rfl

variable {settings : Settings} {n : Nat} {x : Schedule (Kind ε) (Role Empty)}

theorem result_movement (m : Movement) (r : Registry (Kind ε)) : (m.update r).result = m := rfl

theorem update_of_slots {console : Console} {s : Spawner} {m : Movement} {d : Decay}
    (hx : x.slots = crew console s m d) :
    x.update.state.registry =
        (d.update (refillMana (m.update (s.update x.registry).state).state)).state ∧
      x.update.state.ticks = x.ticks + 1 ∧
      ∃ console', x.update.state.slots = crew console' (s.update x.registry).result m
        (d.update (refillMana (m.update (s.update x.registry).state).state)).result := by
  obtain ⟨registry, slots, index, ticks⟩ := x
  cases hx
  have hc : (SystemBehavior.update (Role.console : Role Empty) console registry).state = registry :=
    state_console console registry
  have hs (r : Registry (Kind ε)) :
      SystemBehavior.update (Role.spawner : Role Empty) s r = s.update r := rfl
  have hm (r : Registry (Kind ε)) :
      SystemBehavior.update (Role.movement : Role Empty) m r = m.update r := rfl
  have hr (r : Registry (Kind ε)) :
      SystemBehavior.update (Role.manaRegen : Role Empty) () r = ⟨(), refillMana r, #[]⟩ := rfl
  have hd (r : Registry (Kind ε)) :
      SystemBehavior.update (Role.decay : Role Empty) d r = d.update r := rfl
  simp only [Schedule.update, crew, (Schedule.runSlots_active ..).1,
    (Schedule.runSlots_active ..).2, Schedule.runSlots_nil, hc, hs, hm, hr, hd]
  rw [result_movement]
  exact ⟨trivial, trivial, _, rfl⟩

/-- An update lets the drifters of one tick come and makes all one tick older. -/
theorem Manned.update (h : Manned settings n x) (hr : x.registry.Reachable)
    (hs : 0 < settings.spawnPerTick.toNat → Supplied x.registry)
    (hroom : x.registry.size + settings.spawnPerTick.toNat ≤ Entity.null.index) :
    Manned settings (n + 1) x.update.state ∧
      (∀ k, x.registry.Stocked k → x.update.state.registry.Stocked k) ∧
      ∃ newcomers : List (Entity × Profile (Kind ε)),
        newcomers.map Prod.snd =
          (seedsFrom (.ofNat (settings.spawnCount.toNat + n * settings.spawnPerTick.toNat))
            settings.spawnPerTick.toNat).map drifterProfile ∧
        x.update.state.registry.roll.Perm
          ((x.registry.roll ++ newcomers).filterMap (agedEntry (tickSeconds settings) 1)) := by
  obtain ⟨console, s, d, hslots, hd, hper, hseed⟩ := h.slots
  obtain ⟨hregistry, hticks, console', hslots'⟩ := update_of_slots hslots
  rw [← hper] at hs hroom
  obtain ⟨hspawner, hjoined⟩ :=
    joined_spawnUpTo s.perTick.toNat hr s (furnished_seedsFrom hs s.nextSeed) hroom #[]
  have hr' : (s.update x.registry).state.Reachable := hr.leads (leads_spawnUpTo _ s _ #[])
  have hm := hr'.leads (leads_movement ⟨tickSeconds settings⟩ _)
  have hf := hm.leads (leads_refillMana _)
  obtain ⟨newcomers, hroll, hnew⟩ := hjoined.roll
  refine ⟨⟨by rw [hticks, h.ticks], console', _, _, hslots', ?_, ?_, ?_⟩, ?_, newcomers, ?_, ?_⟩
  · rw [decay_eq hf.valid hd]
  · rw [Spawner.update, hspawner]
    exact hper
  · rw [Spawner.update, hspawner, hseed, hper, ← UInt32.ofNat_add, Nat.add_assoc, Nat.succ_mul]
  · intro k hk
    rw [hregistry]
    exact stocked_decay hf.valid hd (stocked_refillMana hm.valid
      (stocked_movement hr'.valid _ (hjoined.stocked k hk)))
  · rw [hnew, hseed, hper]
  · rw [hregistry, ← hroll]
    exact roll_systems hr' _ hd

variable {sim : Simulation} {r : Registry (Kind ε)}

end Simulation

open Simulation

variable {ε : Type} [DecidableEq ε] [ComponentKind ε]

end TickWorld
