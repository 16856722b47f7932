import Mathlib.Data.List.TakeWhile
import TickWorld.Proofs.Drift.Confined
import TickWorld.Proofs.Registry.Roll

namespace TickWorld

open ComponentKind (name)

section

variable {κ : Type} [DecidableEq κ] [ComponentKind κ]

/-- What an entity owns when it was given some components. -/
def Profile.bestow (p : Profile κ) (components : List (Bound κ)) : Profile κ :=
  components.foldl (fun p c => Function.update p c.kind (some c.value)) p

namespace Registry

/-- The components before the first whose kind is refused memory. -/
def granted (r : Registry κ) (components : List (Bound κ)) : List (Bound κ) :=
  components.takeWhile (r.Stocked ·.kind)

/-- Why not all components are granted, if they are not. -/
def shortage? (r : Registry κ) (components : List (Bound κ)) : Option Failure :=
  (components.find? (¬r.Stocked ·.kind)).map fun c =>
    .allocationFailed (name c.kind) r.sizing.poolCapacity

/-- The second registry differs from the first in what one entity owns; kinds may have got a
pool. -/
structure Endows (r r' : Registry κ) (e : Entity) : Prop where
  pools : ∃ t, r' = { r with pools := t }
  stocked : ∀ k, r'.Stocked k ↔ r.Stocked k
  others : ∀ e', e' ≠ e → r'.get? e' = r.get? e'

variable {r r' r'' : Registry κ} {e : Entity} {k : κ} {components : List (Bound κ)}

theorem shortage?_eq_none_iff :
    r.shortage? components = none ↔ ∀ c ∈ components, r.Stocked c.kind := by
  simp [shortage?, List.find?_eq_none]

theorem granted_of_stocked (hs : ∀ c ∈ components, r.Stocked c.kind) :
    r.granted components = components := by
  rw [granted, List.takeWhile_eq_self_iff]
  simpa using hs

theorem granted_cons (c : Bound κ) (components : List (Bound κ)) :
    r.granted (c :: components) =
      if r.Stocked c.kind then c :: r.granted components else [] := by
  simp [granted, List.takeWhile_cons]

theorem shortage?_cons (c : Bound κ) (components : List (Bound κ)) :
    r.shortage? (c :: components) =
      if r.Stocked c.kind then r.shortage? components
      else some (.allocationFailed (name c.kind) r.sizing.poolCapacity) := by
  by_cases hs : r.Stocked c.kind <;> simp [shortage?, hs]

theorem granted_congr (hs : ∀ k, r'.Stocked k ↔ r.Stocked k) (components : List (Bound κ)) :
    r'.granted components = r.granted components := by
  simp only [granted, hs]

theorem shortage?_congr (hs : ∀ k, r'.Stocked k ↔ r.Stocked k) (hz : r'.sizing = r.sizing)
    (components : List (Bound κ)) : r'.shortage? components = r.shortage? components := by
  simp only [shortage?, hs, hz]

theorem Endows.refl (r : Registry κ) (e : Entity) : r.Endows r e :=
  ⟨⟨r.pools, rfl⟩, fun _ => .rfl, fun _ _ => rfl⟩

theorem Endows.trans (h : r.Endows r' e) (h' : r'.Endows r'' e) : r.Endows r'' e := by
  obtain ⟨t, rfl⟩ := h.pools
  obtain ⟨t', rfl⟩ := h'.pools
  exact ⟨⟨t', rfl⟩, fun k => (h'.stocked k).trans (h.stocked k),
    fun e' he => (h'.others e' he).trans (h.others e' he)⟩

theorem Endows.entities (h : r.Endows r' e) : r'.entities = r.entities := by
  obtain ⟨t, rfl⟩ := h.pools
  rfl

theorem Valid.endows_assign (h : r.Valid) (he : e ∈ r.entities) (hn : r.get? e k = none)
    (hs : r.Stocked k) (hl : slotLimit ≤ ComponentKind.valueLimit k) (value : Value k) :
    (r.assign e k value).result = .ok () ∧ r.Endows (r.assign e k value).state e ∧
      (r.assign e k value).state.get? e = Function.update (r.get? e) k (some value) := by
  obtain ⟨hok, hw⟩ := h.assign_of_stocked he hn hs hl value
  have hget (e' : Entity) (k' : κ) : (r.assign e k value).state.get? e' k' =
      ((r.world.register k).set k e (some value)).value k' e' := by
    rw [← hw]
    rfl
  have hpool (k' : κ) : (r.assign e k value).state.hasPool k' =
      (r.world.register k).registered k' := congrFun (congrArg World.registered hw) k'
  have hpools : ∃ t, (r.assign e k value).state = { r with pools := t } := by
    rw [assign_eq, if_pos (h.isLive_iff.mpr he)]
    exact ⟨_, rfl⟩
  refine ⟨hok, ⟨hpools, ?_, ?_⟩, ?_⟩
  · intro k'
    rw [Stocked, Stocked, hpool, r.sizing_assign e k value]
    by_cases hk : k' = k
    · subst k'
      have hnew : (r.world.register k).registered k = true := Function.update_self ..
      exact iff_of_true (.inl hnew) hs
    · have hold : (r.world.register k).registered k' = r.hasPool k' := Function.update_of_ne hk ..
      rw [hold]
  · intro e' he'
    funext k'
    rw [hget, World.value_set_of_ne _ fun hs => he' hs.2]
    rfl
  · funext k'
    by_cases hk : k' = k
    · subst k'
      rw [hget, World.value_set_self, Function.update_self]
    · rw [hget, World.value_set_of_ne _ fun hs => hk hs.1, Function.update_of_ne hk]
      rfl

/-- Of components of distinct kinds, an entity that has none of them gets those that are granted,
and no other reason for a refusal is possible. -/
theorem Valid.endows_assignAll (h : r.Valid) (he : e ∈ r.entities)
    (hd : (components.map Bound.kind).Nodup) (hn : ∀ c ∈ components, r.get? e c.kind = none)
    (hl : ∀ c ∈ components, slotLimit ≤ ComponentKind.valueLimit c.kind) :
    (Drift.assignAll r e components).result = (r.shortage? components).elim (.ok ()) .error ∧
      r.Endows (Drift.assignAll r e components).state e ∧
      (Drift.assignAll r e components).state.get? e =
        Profile.bestow (r.get? e) (r.granted components) := by
  induction components generalizing r with
  | nil => exact ⟨rfl, .refl r e, rfl⟩
  | cons c components ih =>
    obtain ⟨k, value⟩ := c
    rw [List.map_cons, List.nodup_cons] at hd
    by_cases hs : r.Stocked k
    · have hlimit := hl ⟨k, value⟩ (by simp)
      obtain ⟨hok, hen, hget⟩ := h.endows_assign he (hn _ (by simp)) hs hlimit value
      have he' : e ∈ (r.assign e k value).state.entities := by
        rw [hen.entities]
        exact he
      -- The kinds that are still to come are other kinds, so none of them is there yet.
      have hn' : ∀ c ∈ components, (r.assign e k value).state.get? e c.kind = none := by
        intro c hc
        have hne : c.kind ≠ k := fun hk => hd.1 (List.mem_map.mpr ⟨c, hc, hk⟩)
        rw [hget, Function.update_of_ne hne]
        exact hn c (by simp [hc])
      obtain ⟨hres, hen', hget'⟩ := ih (h.assign e k value) he' hd.2 hn'
        fun c hc => hl c (by simp [hc])
      rw [shortage?_congr hen.stocked (r.sizing_assign e k value)] at hres
      rw [granted_congr hen.stocked, hget] at hget'
      rw [shortage?_cons, if_pos hs, granted_cons, if_pos hs]
      simp only [Drift.assignAll, Outcome.bind, hok]
      exact ⟨hres, hen.trans hen', hget'⟩
    · rw [shortage?_cons, if_neg hs, granted_cons, if_neg hs]
      simp only [Drift.assignAll, Outcome.bind, h.assign_of_not_stocked he hs value]
      exact ⟨rfl, .refl r e, rfl⟩

end Registry

end

namespace Drift

open Registry (Stocked)

variable {ε : Type} [DecidableEq ε] [ComponentKind ε]

def drifterKinds : List (Kind ε) := [.position, .velocity, .lifetime, .health, .mana]

/-- What the drifter with a given seed owns at first. -/
def drifterProfile (seed : UInt32) : Profile (Kind ε) :=
  Profile.bestow (fun _ => none) (drifterComponents seed)

/-- The successive seeds from `seed` on, which begin at zero again after the greatest. -/
def seedsFrom (seed : UInt32) (n : Nat) : List UInt32 :=
  (List.range n).map fun i => seed + .ofNat i

/-- Memory for the components of the drifter with a given seed is not refused. -/
def Furnished (r : Registry (Kind ε)) (seed : UInt32) : Prop :=
  ∀ c ∈ drifterComponents seed, r.Stocked c.kind

def Supplied (r : Registry (Kind ε)) : Prop := ∀ k ∈ drifterKinds, r.Stocked k

/-- An entity has come and was given some components, and nothing else has happened. -/
structure Arrives (r r' : Registry (Kind ε)) (e : Entity) (components : List (Bound (Kind ε))) :
    Prop where
  created : r.create.result = .ok e
  fresh : e ∉ r.entities
  pools : ∃ t, r' = { r.create.state with pools := t }
  entities : r'.entities = r.entities ++ [e]
  owns : r'.get? e = Profile.bestow (fun _ => none) components
  others : ∀ e' ∈ r.entities, r'.get? e' = r.get? e'
  stocked : ∀ k, r'.Stocked k ↔ r.Stocked k

/-- Drifters with the given seeds have come, and nothing else has happened. -/
structure Joined (r r' : Registry (Kind ε)) (seeds : List UInt32) : Prop where
  roll : ∃ newcomers, r'.roll = r.roll ++ newcomers ∧
    newcomers.map Prod.snd = seeds.map drifterProfile
  stocked : ∀ k, r.Stocked k → r'.Stocked k

variable {r r' r'' : Registry (Kind ε)} {seeds seeds' : List UInt32}

theorem Joined.refl (r : Registry (Kind ε)) : Joined r r [] :=
  ⟨⟨[], by simp, rfl⟩, fun _ hk => hk⟩

theorem Joined.trans (h : Joined r r' seeds) (h' : Joined r' r'' seeds') :
    Joined r r'' (seeds ++ seeds') := by
  obtain ⟨newcomers, hroll, hnew⟩ := h.roll
  obtain ⟨newcomers', hroll', hnew'⟩ := h'.roll
  refine ⟨⟨newcomers ++ newcomers', ?_, ?_⟩, fun k hk => h'.stocked k (h.stocked k hk)⟩
  · rw [hroll', hroll, List.append_assoc]
  · rw [List.map_append, List.map_append, hnew, hnew']

theorem Joined.size (h : Joined r r' seeds) : r'.size = r.size + seeds.length := by
  obtain ⟨newcomers, hroll, hnew⟩ := h.roll
  have hl := congrArg List.length hnew
  rw [List.length_map, List.length_map] at hl
  rw [← Registry.length_roll, ← Registry.length_roll, hroll, List.length_append, hl]

theorem Joined.furnished (h : Joined r r' seeds) {seed : UInt32} (hf : Furnished r seed) :
    Furnished r' seed := fun c hc => h.stocked c.kind (hf c hc)

theorem succ_add_ofNat (seed : UInt32) (n : Nat) : seed + 1 + .ofNat n = seed + .ofNat (n + 1) := by
  rw [UInt32.ofNat_add, UInt32.add_assoc, UInt32.add_comm 1]
  rfl

theorem seedsFrom_succ (seed : UInt32) (n : Nat) :
    seedsFrom seed (n + 1) = seed :: seedsFrom (seed + 1) n := by
  rw [seedsFrom, seedsFrom, List.range_succ_eq_map, List.map_cons, List.map_map]
  congr 1
  · exact UInt32.add_zero seed
  · apply List.map_congr_left
    intro i _
    exact (succ_add_ofNat seed i).symm

omit [DecidableEq ε] in
theorem nodup_drifterComponents (seed : UInt32) :
    ((drifterComponents seed : List (Bound (Kind ε))).map Bound.kind).Nodup := by
  rw [drifterComponents]
  split <;> simp

omit [DecidableEq ε] in
theorem mem_drifterKinds {seed : UInt32} {c : Bound (Kind ε)} (hc : c ∈ drifterComponents seed) :
    c.kind ∈ drifterKinds := by
  rw [drifterComponents] at hc
  rw [drifterKinds]
  split at hc
  · simp only [List.cons_append, List.nil_append, List.mem_cons, List.not_mem_nil, or_false] at hc
    rcases hc with rfl | rfl | rfl | rfl | rfl <;> simp
  · simp only [List.append_nil, List.mem_cons, List.not_mem_nil, or_false] at hc
    rcases hc with rfl | rfl | rfl | rfl <;> simp

omit [DecidableEq ε] in
theorem valueLimit_of_mem {k : Kind ε} (hk : k ∈ drifterKinds) :
    slotLimit ≤ ComponentKind.valueLimit k := by
  simp only [drifterKinds, List.mem_cons, List.not_mem_nil, or_false] at hk
  rcases hk with rfl | rfl | rfl | rfl | rfl <;> exact Nat.le_refl _

theorem furnished_seedsFrom {n : Nat} (hs : 0 < n → Supplied r) (seed : UInt32) :
    ∀ x ∈ seedsFrom seed n, Furnished r x := by
  intro x hx c hc
  have hn : 0 < n := by
    obtain ⟨i, hi, -⟩ := List.mem_map.mp hx
    exact Nat.zero_lt_of_lt (List.mem_range.mp hi)
  exact hs hn c.kind (mem_drifterKinds hc)

theorem arrives_spawn (h : r.Valid) {e : Entity} (hok : r.create.result = .ok e) (seed : UInt32) :
    Arrives r (spawn r seed).state e (r.granted (drifterComponents seed)) ∧
      (spawn r seed).result = (r.shortage? (drifterComponents seed)).elim (.ok e) .error := by
  obtain ⟨hfresh, hentities, -⟩ := h.create_of_ok hok
  have hget := h.get?_create hok
  have he : e ∈ r.create.state.entities := by
    rw [hentities]
    exact List.mem_append_right _ (List.mem_singleton_self e)
  have hbare : r.create.state.get? e = fun _ => none := (hget e).trans (if_pos rfl)
  obtain ⟨hres, hen, hown⟩ := h.create.endows_assignAll he (nodup_drifterComponents seed)
    (fun c _ => congrFun hbare c.kind) fun c hc => valueLimit_of_mem (mem_drifterKinds hc)
  rw [Registry.granted_congr h.stocked_create, hbare] at hown
  rw [Registry.shortage?_congr h.stocked_create r.sizing_create] at hres
  have hstate : (spawn r seed).state =
      (assignAll r.create.state e (drifterComponents seed)).state := by
    simp only [spawn, Outcome.bind, hok, Outcome.map]
  refine ⟨⟨hok, hfresh, ?_, ?_, ?_, ?_, ?_⟩, ?_⟩
  · rw [hstate]
    exact hen.pools
  · rw [hstate, hen.entities, hentities]
  · rw [hstate, hown]
  · intro e' he'
    have hne : e' ≠ e := fun hs => hfresh (hs ▸ he')
    rw [hstate, hen.others e' hne, hget, if_neg hne]
  · intro k
    rw [hstate]
    exact (hen.stocked k).trans (h.stocked_create k)
  · simp only [spawn, Outcome.bind, hok, Outcome.map, hres]
    cases r.shortage? (drifterComponents seed) <;> rfl

/-- Either no number is left, and nothing happens, or an entity comes. -/
theorem spawn_cases (h : r.Valid) (seed : UInt32) :
    r.create.result = .error .entitiesExhausted ∧
        spawn r seed = ⟨.error .entitiesExhausted, r, #[]⟩ ∨
      ∃ e, Arrives r (spawn r seed).state e (r.granted (drifterComponents seed)) ∧
        (spawn r seed).result = (r.shortage? (drifterComponents seed)).elim (.ok e) .error := by
  cases hc : r.create.result with
  | ok e => exact .inr ⟨e, arrives_spawn h hc seed⟩
  | error cause =>
    have hsame := h.create_of_error hc
    left
    rw [hsame] at hc
    refine ⟨hc.symm, ?_⟩
    simp only [spawn, Outcome.bind, hsame]
    rfl

theorem Arrives.joined {e : Entity} {seed : UInt32}
    (h : Arrives r r' e (drifterComponents seed)) : Joined r r' [seed] := by
  refine ⟨⟨[(e, drifterProfile seed)], ?_, rfl⟩, fun k => (h.stocked k).mpr⟩
  rw [Registry.roll, Registry.roll, h.entities, List.map_append, List.map_singleton, h.owns]
  congr 1
  apply List.map_congr_left
  intro e' he'
  rw [h.others e' he']

theorem joined_spawn (h : r.Valid) {seed : UInt32} (hf : Furnished r seed)
    (hr : r.size < Entity.null.index) :
    ∃ e, (spawn r seed).result = .ok e ∧ Joined r (spawn r seed).state [seed] := by
  obtain ⟨e, hok⟩ := h.create_of_lt hr
  obtain ⟨ha, hres⟩ := arrives_spawn h hok seed
  rw [Registry.shortage?_eq_none_iff.mpr hf] at hres
  rw [Registry.granted_of_stocked hf] at ha
  exact ⟨e, hres, ha.joined⟩

theorem joined_spawn_succ {n : Nat} {seed : UInt32} (h : r.Reachable)
    (hf : ∀ x ∈ seedsFrom seed (n + 1), Furnished r x)
    (hr : r.size + (n + 1) ≤ Entity.null.index) :
    ∃ e, (spawn r seed).result = .ok e ∧ Joined r (spawn r seed).state [seed] ∧
      (spawn r seed).state.Reachable ∧
      (∀ x ∈ seedsFrom (seed + 1) n, Furnished (spawn r seed).state x) ∧
      (spawn r seed).state.size + n ≤ Entity.null.index := by
  rw [seedsFrom_succ, List.forall_mem_cons] at hf
  obtain ⟨e, hok, hj⟩ := joined_spawn h.valid hf.1 (by omega)
  refine ⟨e, hok, hj, h.leads (leads_spawn r seed), fun x hx => hj.furnished (hf.2 x hx), ?_⟩
  rw [hj.size, List.length_singleton]
  omega

theorem joined_spawnUpTo (n : Nat) (h : r.Reachable) (s : Spawner)
    (hf : ∀ x ∈ seedsFrom s.nextSeed n, Furnished r x) (hr : r.size + n ≤ Entity.null.index)
    (events : Array Event) :
    (s.spawnUpTo r events n).result =
        { s with nextSeed := s.nextSeed + .ofNat n, spawned := s.spawned + n } ∧
      Joined r (s.spawnUpTo r events n).state (seedsFrom s.nextSeed n) := by
  induction n generalizing r s events with
  | zero =>
    have hz : s.nextSeed + .ofNat 0 = s.nextSeed := UInt32.add_zero s.nextSeed
    rw [hz]
    exact ⟨rfl, .refl r⟩
  | succ n ih =>
    obtain ⟨e, hok, hj, h', hf', hr'⟩ := joined_spawn_succ h hf hr
    rw [Spawner.spawnUpTo, seedsFrom_succ]
    split
    · rename_i he
      rw [he] at hok
      cases hok
    · rename_i he
      rw [he] at hj h' hf' hr'
      obtain ⟨hres, hj'⟩ := ih h' { s with nextSeed := s.nextSeed + 1, spawned := s.spawned + 1 }
        hf' hr' _
      refine ⟨hres.trans ?_, hj.trans hj'⟩
      rw [succ_add_ofNat, Nat.add_assoc, Nat.add_comm 1]

end Drift

end TickWorld
