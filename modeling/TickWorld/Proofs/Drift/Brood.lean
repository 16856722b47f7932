import TickWorld.Proofs.Drift.Survival

namespace TickWorld.Drift

open Registry (Stocked)

variable {ε : Type} [DecidableEq ε] [ComponentKind ε]

/-- The drifters that have come, each as its seed and its age: `c` of them before the first of `n`
ticks and `p` in every tick. The seeds go on from tick to tick, and begin at zero again after the
greatest. -/
def brood (c p n : Nat) : List (UInt32 × Nat) :=
  (List.range c).map (fun s => (.ofNat s, n)) ++
    (List.range n).flatMap fun j => (List.range p).map fun i => (.ofNat (c + j * p + i), n - j)

def living (c p n : Nat) : List (UInt32 × Nat) :=
  (brood c p n).filter fun b => b.2 < lifespan b.1

/-- The entities of a registry that live on for `n` ticks. -/
def lasting (r : Registry (Kind ε)) (n : Nat) : List Entity :=
  r.entities.filter fun e => outlasts n (r.get? e)

/-- How many entities live after `n` ticks. -/
def population (r : Registry (Kind ε)) (c p n : Nat) : Nat :=
  (lasting r n).length + (living c p n).length

/-- The second registry is what `n` ticks make of the first if `c` drifters come before them and
`p` in every tick. -/
structure Populated (r r' : Registry (Kind ε)) (c p n : Nat) : Prop where
  live : ∃ young, r'.entities.Perm (lasting r n ++ young) ∧
    List.Forall₂ (fun b e => IsDrifter r' b.1 b.2 e) (living c p n) young
  kept : ∀ e ∈ lasting r n, Ages n (r.get? e) (r'.get? e)

/-- In a tick all get older, and then those that have come in the tick are one tick old. -/
theorem brood_succ (c p n : Nat) :
    brood c p (n + 1) = (brood c p n ++ (seedsFrom (.ofNat (c + n * p)) p).map (·, 0)).map
      (Prod.map id (· + 1)) := by
  -- The drifters of the last tick get older with all others at its end.
  have hlast : (List.range p).map (fun i => (UInt32.ofNat (c + n * p + i), n + 1 - n)) =
      ((seedsFrom (.ofNat (c + n * p)) p).map (·, 0)).map (Prod.map id (· + 1)) := by
    rw [seedsFrom, List.map_map, List.map_map]
    apply List.map_congr_left
    intro i _
    simp [UInt32.ofNat_add]
  have hearlier : (List.range n).flatMap (fun j => (List.range p).map fun i =>
        (UInt32.ofNat (c + j * p + i), n + 1 - j)) =
      ((List.range n).flatMap fun j => (List.range p).map fun i =>
        (UInt32.ofNat (c + j * p + i), n - j)).map (Prod.map id (· + 1)) := by
    rw [List.map_flatMap]
    apply List.flatMap_congr
    intro j hj
    rw [List.mem_range] at hj
    rw [List.map_map]
    apply List.map_congr_left
    intro i _
    simp only [Function.comp_apply, Prod.map_apply, id]
    congr 1
    omega
  have hfirst : (List.range c).map (fun s => (UInt32.ofNat s, n + 1)) =
      ((List.range c).map fun s => (UInt32.ofNat s, n)).map (Prod.map id (· + 1)) := by
    rw [List.map_map]
    rfl
  rw [brood, brood, List.range_succ, List.flatMap_append, List.flatMap_singleton, hlast, hearlier,
    hfirst, List.map_append, List.map_append, List.append_assoc]

def agedEntry (step : Float32) (n : Nat) (x : Entity × Profile (Kind ε)) :
    Option (Entity × Profile (Kind ε)) := (agedBy step n x.2).map (x.1, ·)

theorem agedEntry_succ (step : Float32) (n : Nat) (x : Entity × Profile (Kind ε)) :
    agedEntry step (n + 1) x = (agedEntry step n x).bind (agedEntry step 1) := by
  simp only [agedEntry, agedBy]
  cases agedBy step n x.2 with
  | none => rfl
  | some p => rfl

/-- Movement, mana and decay together make every entry of the roll one tick older. -/
theorem roll_systems {r : Registry (Kind ε)} (h : r.Reachable) (m : Movement) {d : Decay}
    (hd : d.expired = #[]) :
    (d.update (refillMana (m.update r).state)).state.roll.Perm
      (r.roll.filterMap (agedEntry m.step 1)) := by
  have hm := h.leads (leads_movement m r)
  have hr := hm.leads (leads_refillMana _)
  refine (roll_decay hr.valid hd).trans (.of_eq ?_)
  rw [roll_refillMana hm.valid, roll_movement h.valid, List.map_map, List.map_map,
    ← List.filterMap_eq_filter, List.filterMap_map]
  congr 1
  funext x
  obtain ⟨e, p⟩ := x
  have ha : agedBy m.step 1 p = aged m.step p := rfl
  rw [agedEntry, ha, aged]
  have hp : shortened (refilled (moved m.step p)) = ticked m.step p := rfl
  simp only [Function.comp_apply, Prod.map_apply, id, Option.guard, hp]
  cases expired (ticked m.step p) <;> rfl

/-- What a drifter of a given seed and age owns, if it still lives. -/
def grown (step : Float32) (b : UInt32 × Nat) : Option (Profile (Kind ε)) :=
  agedBy step b.2 (drifterProfile b.1)

theorem filterMap_grown_newcomers (step : Float32) (seeds : List UInt32) :
    (seeds.map (·, 0)).filterMap (grown (ε := ε) step) = seeds.map drifterProfile := by
  rw [List.filterMap_map]
  exact congrFun List.filterMap_eq_map' seeds

/-- The roll after `n` ticks has the entries that are left of the first, and those of the
brood. -/
def Grown (step : Float32) (r r' : Registry (Kind ε)) (c p n : Nat) : Prop :=
  ∃ young, r'.roll.Perm (r.roll.filterMap (agedEntry step n) ++ young) ∧
    young.map Prod.snd = (brood c p n).filterMap (grown step)

variable {step : Float32} {r r' r'' : Registry (Kind ε)} {c p n : Nat}

theorem Grown.succ (h : Grown step r r' c p n) {newcomers : List (Entity × Profile (Kind ε))}
    (hn : newcomers.map Prod.snd = (seedsFrom (.ofNat (c + n * p)) p).map drifterProfile)
    (hr : r''.roll.Perm ((r'.roll ++ newcomers).filterMap (agedEntry step 1))) :
    Grown step r r'' c p (n + 1) := by
  obtain ⟨young, hroll, hyoung⟩ := h
  refine ⟨(young ++ newcomers).filterMap (agedEntry step 1), ?_, ?_⟩
  · refine hr.trans (((hroll.append_right _).filterMap _).trans (.of_eq ?_))
    rw [List.append_assoc, List.filterMap_append, List.filterMap_filterMap]
    congr 2
    funext x
    exact (agedEntry_succ step n x).symm
  · have hsnd : (fun x : Entity × Profile (Kind ε) => (agedEntry step 1 x).map Prod.snd) =
        aged step ∘ Prod.snd := by
      funext x
      rw [agedEntry, Option.map_map]
      exact Option.map_id'
    have hage : grown (ε := ε) step ∘ Prod.map id (· + 1) =
        fun b => (grown step b).bind (aged step) := rfl
    calc ((young ++ newcomers).filterMap (agedEntry step 1)).map Prod.snd
      _ = ((young ++ newcomers).map Prod.snd).filterMap (aged step) := by
        rw [List.map_filterMap, hsnd, List.filterMap_map]
      _ = ((brood c p n ++ (seedsFrom (.ofNat (c + n * p)) p).map (·, 0)).filterMap
            (grown step)).filterMap (aged step) := by
        rw [List.map_append, hyoung, hn, ← filterMap_grown_newcomers step,
          ← List.filterMap_append]
      _ = (brood c p (n + 1)).filterMap (grown step) := by
        rw [brood_succ, List.filterMap_map, hage, List.filterMap_filterMap]

theorem Populated.size (h : Populated r r' c p n) : r'.size = population r c p n := by
  obtain ⟨young, hp, hf⟩ := h.live
  have hl := hp.length_eq
  rw [List.length_append, ← hf.length_eq] at hl
  rw [population, ← hl, Registry.entities, SparseSet.toList, Array.length_toList]
  rfl

end TickWorld.Drift
