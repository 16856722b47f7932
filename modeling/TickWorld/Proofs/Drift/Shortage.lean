import TickWorld.Proofs.Drift.Spawn

namespace TickWorld

def Event.isStarvedSpawn : Event → Bool
  | .spawnFailed (.allocationFailed ..) => true
  | _ => false

/-- How many spawns were reported to have been refused memory. -/
def starvedSpawns (events : Array Event) : Nat := events.countP Event.isStarvedSpawn

theorem starvedSpawns_append (events more : Array Event) :
    starvedSpawns (events ++ more) = starvedSpawns events + starvedSpawns more :=
  Array.countP_append

theorem starvedSpawns_push (events : Array Event) (event : Event) :
    starvedSpawns (events.push event) =
      starvedSpawns events + if event.isStarvedSpawn then 1 else 0 :=
  Array.countP_push

section

variable {κ : Type} [DecidableEq κ] [ComponentKind κ]

omit [DecidableEq κ] in
theorem starvedSpawns_create (r : Registry κ) : starvedSpawns r.create.events = 0 := by
  have hquiet (r : Registry κ) (e : Entity) : starvedSpawns (r.enliven e).events = 0 := by
    rw [Registry.enliven, starvedSpawns_append]
    split <;> split <;> rfl
  rw [Registry.create]
  split
  · exact hquiet _ _
  · split
    · exact hquiet _ _
    · rfl

theorem starvedSpawns_assign (r : Registry κ) (e : Entity) (k : κ) (value : Value k) :
    starvedSpawns (r.assign e k value).events = 0 := by
  rw [Registry.assign_eq]
  split
  · rw [Outcome.mapState, Pools.updateOrCreate]
    rcases r.pools.ensure_cases k r.sizing.poolCapacity with
      ⟨-, he⟩ | ⟨-, cause, -, he⟩ | ⟨-, -, he⟩ <;> rw [he] <;> rfl
  · rfl

theorem starvedSpawns_assignAll (e : Entity) (components : List (Bound κ)) (r : Registry κ) :
    starvedSpawns (Drift.assignAll r e components).events = 0 := by
  induction components generalizing r with
  | nil => rfl
  | cons c components ih =>
    obtain ⟨k, value⟩ := c
    simp only [Drift.assignAll, Outcome.bind]
    rw [starvedSpawns_append, starvedSpawns_assign, Nat.zero_add]
    split
    · rfl
    · exact ih _

end

namespace Drift

variable {ε : Type} [DecidableEq ε] [ComponentKind ε] {r r' : Registry (Kind ε)}

theorem starvedSpawns_spawn (r : Registry (Kind ε)) (seed : UInt32) :
    starvedSpawns (spawn r seed).events = 0 := by
  simp only [spawn, Outcome.bind]
  rw [starvedSpawns_append, starvedSpawns_create, Nat.zero_add]
  split
  · rfl
  · exact starvedSpawns_assignAll _ _ _

theorem Arrives.size {e : Entity} {components : List (Bound (Kind ε))}
    (h : Arrives r r' e components) : r'.size = r.size + 1 := by
  have hl := congrArg List.length h.entities
  rw [List.length_append, List.length_singleton] at hl
  rw [← Registry.length_roll, ← Registry.length_roll, Registry.roll, Registry.roll,
    List.length_map, List.length_map, hl]

theorem isStarvedSpawn_of_shortage {components : List (Bound (Kind ε))} {cause : Failure}
    (h : r.shortage? components = some cause) :
    (Event.spawnFailed cause).isStarvedSpawn = true := by
  obtain ⟨c, -, rfl⟩ := Option.map_eq_some_iff.mp h
  rfl

theorem size_spawn (h : r.Valid) (seed : UInt32) :
    (spawn r seed).state.size = r.size +
      match (spawn r seed).result with
      | .ok _ => 1
      | .error cause => if (Event.spawnFailed cause).isStarvedSpawn then 1 else 0 := by
  rcases spawn_cases h seed with ⟨-, hnone⟩ | ⟨e, ha, hres⟩
  · rw [hnone]
    rfl
  · rw [ha.size, hres]
    cases hs : r.shortage? (drifterComponents seed) with
    | none => rfl
    | some cause =>
      simp only [Option.elim_some]
      rw [if_pos (isStarvedSpawn_of_shortage hs)]

/-- Every entity that comes while a spawner spawns is counted, or its spawn is reported to have
been refused memory. -/
theorem spawnUpTo_balance (n : Nat) (h : r.Reachable) (s : Spawner) (events : Array Event) :
    r.size ≤ (s.spawnUpTo r events n).state.size ∧
      (s.spawnUpTo r events n).state.size + s.spawned + starvedSpawns events =
        r.size + (s.spawnUpTo r events n).result.spawned +
          starvedSpawns (s.spawnUpTo r events n).events := by
  induction n generalizing r s events with
  | zero => exact ⟨Nat.le_refl _, rfl⟩
  | succ n ih =>
    have hquiet := starvedSpawns_spawn r s.nextSeed
    have hsize := size_spawn h.valid s.nextSeed
    have hr' := h.leads (leads_spawn r s.nextSeed)
    rw [Spawner.spawnUpTo]
    split
    · -- This spawn is the last of the update: it is not counted, but what it left is reported.
      rename_i cause r' more he
      rw [he] at hquiet hsize
      simp only at hquiet hsize ⊢
      rw [starvedSpawns_push, starvedSpawns_append, hquiet]
      omega
    · rename_i e r' more he
      rw [he] at hquiet hsize hr'
      have hi := ih hr' { s with nextSeed := s.nextSeed + 1, spawned := s.spawned + 1 }
        (events ++ more)
      simp only at hquiet hsize hi ⊢
      rw [starvedSpawns_append, hquiet] at hi
      omega

/-- A spawner after some updates over reachable registries, with the number of entities that it
has added to them, and the number of its spawns that were refused memory. -/
inductive Spawner.Ledger : Spawner → Nat → Nat → Prop where
  | made (perTick firstSeed : UInt32) : Ledger { perTick, nextSeed := firstSeed } 0 0
  | update {ε : Type} [DecidableEq ε] [ComponentKind ε] {s : Spawner} {added starved : Nat}
      {r : Registry (Kind ε)} : r.Reachable → Ledger s added starved →
      Ledger (s.update r).result (added + ((s.update r).state.size - r.size))
        (starved + starvedSpawns (s.update r).events)

theorem Spawner.Ledger.balance {s : Spawner} {added starved : Nat} (h : s.Ledger added starved) :
    added = s.spawned + starved := by
  induction h with
  | made => rfl
  | @update ε _ _ s added starved r hr _ ih =>
    obtain ⟨hle, hbalance⟩ := spawnUpTo_balance s.perTick.toNat hr s #[]
    have hempty : starvedSpawns #[] = 0 := rfl
    rw [hempty] at hbalance
    rw [Spawner.update]
    omega

/-- A spawn that is refused memory leaves the entity that was created for it, with the components
that were granted before, and only a spawn without a number left leaves nothing. So the entities
that a spawner has added are those that it has counted and one for each spawn that was refused
memory. -/
theorem starved_spawn_leaves_entity :
    (∀ (r : Registry (Kind ε)) (seed : UInt32) (cause : Failure), r.Reachable →
      (spawn r seed).result = .error cause →
        cause = .entitiesExhausted ∧ (spawn r seed).state = r ∨
        r.shortage? (drifterComponents seed) = some cause ∧
          ∃ e, Arrives r (spawn r seed).state e (r.granted (drifterComponents seed))) ∧
    ∀ (s : Spawner) (added starved : Nat), s.Ledger added starved →
      added = s.spawned + starved := by
  constructor
  · intro r seed cause h hr
    rcases spawn_cases h.valid seed with ⟨-, hnone⟩ | ⟨e, ha, hres⟩
    · rw [hnone] at hr ⊢
      cases hr
      exact .inl ⟨rfl, rfl⟩
    · right
      rw [hr] at hres
      refine ⟨?_, e, ha⟩
      cases hs : r.shortage? (drifterComponents seed) with
      | none =>
        rw [hs] at hres
        cases hres
      | some cause' =>
        rw [hs] at hres
        cases hres
        rfl
  · intro s added starved h
    exact h.balance

/-- Pools are to be created with more room than the allocator gives. The number that waits is used
for an entity that stays without components, and two updates of a spawner add two more. -/
theorem starved_spawn_leaves_entity_bare :
    ∃ (r : Registry (Kind Empty)) (s : Spawner) (cause : Failure) (e : Entity), r.Reachable ∧
      r.entities = [⟨1⟩] ∧ r.recycled.toList = [⟨0⟩] ∧ (spawn r 0).result = .error cause ∧
      (spawn r 0).state.entities = [⟨1⟩, ⟨0⟩] ∧ (spawn r 0).state.recycled.toList = [] ∧
      Arrives r (spawn r 0).state e [] ∧ s.Ledger 2 2 ∧ 2 = s.spawned + 2 ∧ s.spawned = 0 := by
  let r₀ : Registry (Kind Empty) := { sizing := ⟨0, slotLimit⟩ }
  let r := r₀.after [.command .create, .command .create, .command (.destroy ⟨0⟩)]
  let s₀ : Spawner := { perTick := 3, nextSeed := 0 }
  let r' := (s₀.update r).state
  let s₁ := (s₀.update r).result
  let s₂ := (s₁.update r').result
  have hr : r.Reachable := (Registry.reachable_empty slotLimit).after _
  have hr' : r'.Reachable := hr.leads (leads_spawnUpTo _ s₀ r #[])
  have hadded : 0 + (r'.size - r.size) + ((s₁.update r').state.size - r'.size) = 2 := by
    decide +kernel
  have hstarved : 0 + starvedSpawns (s₀.update r).events + starvedSpawns (s₁.update r').events =
      2 := by decide +kernel
  have hledger := Spawner.Ledger.update hr' (.update hr (.made 3 0))
  rw [hadded, hstarved] at hledger
  have hcause : (spawn r 0).result =
      .error (.allocationFailed "indie::gameplay::components::Position" slotLimit) := by
    decide +kernel
  have hgranted : r.granted (drifterComponents 0) = [] := by
    rw [← List.length_eq_zero_iff]
    decide +kernel
  obtain ⟨hspawn, hbalance⟩ := starved_spawn_leaves_entity (ε := Empty)
  rcases hspawn r 0 _ hr hcause with ⟨hnone, -⟩ | ⟨-, e, ha⟩
  · cases hnone
  · rw [hgranted] at ha
    exact ⟨r, s₂, _, e, hr, by decide +kernel, by decide +kernel, hcause, by decide +kernel,
      by decide +kernel, ha, hledger, hbalance s₂ 2 2 hledger, by decide +kernel⟩

end Drift

end TickWorld
