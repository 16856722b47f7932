import TickWorld.Proofs.Drift.Survival

namespace TickWorld.Drift

variable {ε : Type} [DecidableEq ε] [ComponentKind ε]

/-- The entity is the drifter with a given seed, as it was when it came. -/
structure Newborn (r : Registry (Kind ε)) (seed : UInt32) (e : Entity) : Prop where
  live : e ∈ r.entities
  position : r.get? e .position = some ⟨(seed % 64).toFloat32, (seed / 64 % 64).toFloat32⟩
  velocity : r.get? e .velocity = some ⟨(seed % 7).toFloat32 - 3.0, (seed % 5).toFloat32 - 2.0⟩
  lifetime : ∃ l, r.get? e .lifetime = some l ∧ l.ticks.toNat = 30 + seed.toNat % 90
  health : r.get? e .health = some ⟨100, 100⟩
  mana : r.get? e .mana = if seed.toNat % 3 = 0 then some ⟨0, 50, 2⟩ else none
  other : ∀ k, r.get? e (.other k) = none

def Spawner.updates (s : Spawner) (r : Registry (Kind ε)) : Nat → Spawner × Registry (Kind ε)
  | 0 => (s, r)
  | n + 1 => (s.update r).result.updates (s.update r).state n

variable {r r' : Registry (Kind ε)} {seed : UInt32} {e : Entity}

theorem mod_three_eq_zero_iff (seed : UInt32) : seed % 3 = 0 ↔ seed.toNat % 3 = 0 := by
  rw [← UInt32.toNat_inj, UInt32.toNat_mod]
  rfl

theorem newborn_of_get?_eq (he : e ∈ r.entities) (hp : r.get? e = drifterProfile seed) :
    Newborn r seed e := by
  have hl : (drifterProfile seed : Profile (Kind ε)) .lifetime = some (lifetimeOf seed) :=
    (drifterProfile_eq seed).1
  have hticks := toNat_lifetimeOf seed
  rw [lifespan] at hticks
  refine ⟨he, ?_, ?_, ⟨_, by rw [hp, hl], hticks⟩, ?_, ?_, fun k => ?_⟩
  all_goals rw [hp, drifterProfile, drifterComponents]
  · split <;> rfl
  · split <;> rfl
  · split <;> rfl
  · split
    · rename_i hz
      rw [if_pos ((mod_three_eq_zero_iff seed).mp hz)]
      rfl
    · rename_i hz
      rw [if_neg fun hn => hz ((mod_three_eq_zero_iff seed).mpr hn)]
      rfl
  · split <;> rfl

theorem Arrives.newborn (h : Arrives r r' e (drifterComponents seed)) : Newborn r' seed e := by
  apply newborn_of_get?_eq
  · rw [h.entities]
    simp
  · exact h.owns

theorem Joined.newborns {seeds : List UInt32} (h : Joined r r' seeds) :
    ∃ es, r'.entities = r.entities ++ es ∧ List.Forall₂ (Newborn r') seeds es ∧
      ∀ e ∈ r.entities, r'.get? e = r.get? e := by
  obtain ⟨newcomers, hroll, hnew⟩ := h.roll
  have hentities := congrArg (List.map Prod.fst) hroll
  rw [List.map_append, Registry.map_fst_roll, Registry.map_fst_roll] at hentities
  refine ⟨newcomers.map Prod.fst, hentities, ?_, ?_⟩
  · have hprofiles : List.Forall₂ (fun seed p => drifterProfile seed = p) seeds
        (newcomers.map Prod.snd) := by
      rw [hnew, List.forall₂_map_right_iff, List.forall₂_same]
      exact fun _ _ => rfl
    have hmem : ∀ x ∈ newcomers, x ∈ r'.roll := by
      intro x hx
      rw [hroll]
      exact List.mem_append_right _ hx
    refine (Registry.forall₂_roll hmem hprofiles).imp ?_
    intro seed e hx
    exact newborn_of_get?_eq hx.1 hx.2.symm
  · intro e he
    have hx : (e, r.get? e) ∈ r'.roll := by
      rw [hroll]
      exact List.mem_append_left _ (Registry.mem_roll.mpr ⟨he, rfl⟩)
    exact (Registry.mem_roll.mp hx).2

theorem seedsFrom_add (seed : UInt32) (m n : Nat) :
    seedsFrom seed (m + n) = seedsFrom seed m ++ seedsFrom (seed + .ofNat m) n := by
  rw [seedsFrom, seedsFrom, seedsFrom, List.range_add, List.map_append, List.map_map]
  congr 1
  apply List.map_congr_left
  intro i _
  rw [Function.comp_apply, UInt32.ofNat_add, UInt32.add_assoc]

theorem joined_updates {p : Nat} (n : Nat) (h : r.Reachable) (s : Spawner)
    (hp : s.perTick.toNat = p) (hf : ∀ x ∈ seedsFrom s.nextSeed (n * p), Furnished r x)
    (hr : r.size + n * p ≤ Entity.null.index) :
    (s.updates r n).1 =
        { s with nextSeed := s.nextSeed + .ofNat (n * p), spawned := s.spawned + n * p } ∧
      Joined r (s.updates r n).2 (seedsFrom s.nextSeed (n * p)) := by
  induction n generalizing r s with
  | zero =>
    have hz : s.nextSeed + .ofNat (0 * p) = s.nextSeed := by
      rw [Nat.zero_mul]
      exact UInt32.add_zero s.nextSeed
    rw [hz, Nat.zero_mul]
    exact ⟨rfl, .refl r⟩
  | succ n ih =>
    have hlength : (n + 1) * p = p + n * p := by
      rw [Nat.succ_mul, Nat.add_comm]
    rw [hlength] at hf hr ⊢
    rw [seedsFrom_add, List.forall_mem_append] at hf
    obtain ⟨hs, hj⟩ := joined_spawnUpTo p h s hf.1 (by omega) #[]
    have hsize := hj.size
    rw [seedsFrom, List.length_map, List.length_range] at hsize
    obtain ⟨hs', hj'⟩ := ih (h.leads (leads_spawnUpTo p s r #[]))
      { s with nextSeed := s.nextSeed + .ofNat p, spawned := s.spawned + p } hp
      (fun x hx => hj.furnished (hf.2 x hx)) (by omega)
    rw [Spawner.updates, Spawner.update, hp, hs, seedsFrom_add]
    refine ⟨hs'.trans ?_, hj.trans hj'⟩
    simp only [UInt32.ofNat_add, UInt32.add_assoc, Nat.add_assoc]

/-- A spawn fails for want of numbers or memory only. Where memory is not refused, it answers what
creation answers, and the entity owns what follows from the seed; whoever lived before owns what it
owned. Any number of updates of a spawner spawns the drifters of successive seeds. -/
theorem spawning_follows_seeds :
    (∀ (r : Registry (Kind ε)) (seed : UInt32), r.Reachable →
      (∀ cause, (spawn r seed).result = .error cause →
        cause = .entitiesExhausted ∨ ∃ component n, cause = .allocationFailed component n) ∧
      ((∀ component n, (spawn r seed).result ≠ .error (.allocationFailed component n)) →
        (spawn r seed).result = r.create.result ∧
        ∀ e, r.create.result = .ok e →
          e ∉ r.entities ∧ (spawn r seed).state.entities = r.entities ++ [e] ∧
            Newborn (spawn r seed).state seed e ∧
            ∀ e' ∈ r.entities, (spawn r seed).state.get? e' = r.get? e')) ∧
    ∀ (s : Spawner) (r : Registry (Kind ε)) (n : Nat), r.Reachable →
      (∀ seed ∈ seedsFrom s.nextSeed (n * s.perTick.toNat), Furnished r seed) →
      r.size + n * s.perTick.toNat ≤ Entity.null.index →
        (s.updates r n).1 =
          { s with
            nextSeed := s.nextSeed + .ofNat (n * s.perTick.toNat)
            spawned := s.spawned + n * s.perTick.toNat } ∧
        ∃ es, (s.updates r n).2.entities = r.entities ++ es ∧
          List.Forall₂ (Newborn (s.updates r n).2)
            (seedsFrom s.nextSeed (n * s.perTick.toNat)) es ∧
          ∀ e ∈ r.entities, (s.updates r n).2.get? e = r.get? e := by
  constructor
  · intro r seed h
    rcases spawn_cases h.valid seed with ⟨hc, hnone⟩ | ⟨e, ha, hres⟩
    · rw [hnone, hc]
      refine ⟨?_, fun _ => ⟨rfl, ?_⟩⟩
      · intro cause hr
        cases hr
        exact .inl rfl
      · intro e he
        cases he
    · cases hs : r.shortage? (drifterComponents seed) with
      | some cause =>
        obtain ⟨c, -, rfl⟩ := Option.map_eq_some_iff.mp hs
        rw [hs] at hres
        refine ⟨?_, fun hgranted => absurd hres (hgranted _ _)⟩
        intro cause hr
        rw [hres] at hr
        cases hr
        exact .inr ⟨_, _, rfl⟩
      | none =>
        rw [hs] at hres
        rw [Registry.granted_of_stocked (Registry.shortage?_eq_none_iff.mp hs)] at ha
        refine ⟨?_, fun _ => ⟨hres.trans ha.created.symm, ?_⟩⟩
        · intro cause hr
          rw [hres] at hr
          cases hr
        · intro e' he'
          rw [ha.created] at he'
          cases he'
          exact ⟨ha.fresh, ha.entities, ha.newborn, ha.others⟩
  · intro s r n h hf hr
    obtain ⟨hs, hj⟩ := joined_updates n h s rfl hf hr
    exact ⟨hs, hj.newborns⟩

/-- Health and mana were stored for the number that waits, and the seeds pass the greatest. -/
theorem spawning_follows_seeds_stale :
    ∃ (r : Registry (Kind Empty)) (s : Spawner), r.Reachable ∧ r.entities = [⟨1⟩] ∧
      (r.pools.value? ⟨0⟩ .health).map (·.current) = some 6 ∧
      (r.pools.value? ⟨0⟩ .mana).map (·.current) = some 9 ∧ s.nextSeed = 0xFFFFFFFE ∧
      (spawn r s.nextSeed).result = r.create.result ∧
      Newborn (spawn r s.nextSeed).state s.nextSeed ⟨0⟩ ∧
      (s.updates r 2).1.nextSeed = 2 ∧ (s.updates r 2).1.spawned = 4 ∧
      ∃ es, (s.updates r 2).2.entities = ⟨1⟩ :: es ∧
        List.Forall₂ (Newborn (s.updates r 2).2) [0xFFFFFFFE, 0xFFFFFFFF, 0, 1] es := by
  let r₀ : Registry (Kind Empty) := { sizing := ⟨0, 0⟩ }
  let r := r₀.after [.command .create, .command .create,
    .command (.assign ⟨1⟩ .health (Health.full 5)), .command (.assign ⟨1⟩ .mana ⟨1, 2, 3⟩),
    .command (.destroy ⟨0⟩), .writePool .health (.assign ⟨0⟩ (Health.full 6)),
    .writePool .mana (.assign ⟨0⟩ ⟨9, 9, 9⟩)]
  let s : Spawner := { perTick := 2, nextSeed := 0xFFFFFFFE }
  have hr : r.Reachable := (Registry.reachable_empty 0).after _
  have hentities : r.entities = [⟨1⟩] := by decide +kernel
  have hcreated : r.create.result = .ok ⟨0⟩ := by decide +kernel
  have hgranted : ∀ component n,
      (spawn r s.nextSeed).result ≠ .error (.allocationFailed component n) := by
    have hok : (spawn r s.nextSeed).result = .ok ⟨0⟩ := by decide +kernel
    intro component n hn
    rw [hok] at hn
    cases hn
  have hfurnished : ∀ seed ∈ seedsFrom s.nextSeed (2 * s.perTick.toNat), Furnished r seed :=
    fun _ _ _ _ => .inr (by decide +kernel)
  obtain ⟨hspawn, hupdates⟩ := spawning_follows_seeds (ε := Empty)
  obtain ⟨hsame, hborn⟩ := (hspawn r s.nextSeed hr).2 hgranted
  obtain ⟨hs, es, hes, hnewborns, -⟩ := hupdates s r 2 hr hfurnished (by decide +kernel)
  have hseeds : seedsFrom s.nextSeed (2 * s.perTick.toNat) = [0xFFFFFFFE, 0xFFFFFFFF, 0, 1] := by
    decide +kernel
  have hnext : s.nextSeed + .ofNat (2 * s.perTick.toNat) = 2 := by decide +kernel
  rw [hnext] at hs
  rw [hentities] at hes
  rw [hseeds] at hnewborns
  refine ⟨r, s, hr, hentities, by decide +kernel, by decide +kernel, rfl, hsame,
    (hborn ⟨0⟩ hcreated).2.2.1, ?_, ?_, es, hes, hnewborns⟩
  · rw [hs]
  · rw [hs]
    rfl

end TickWorld.Drift
