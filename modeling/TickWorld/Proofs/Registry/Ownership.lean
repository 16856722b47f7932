import Mathlib.Data.List.Basic
import TickWorld.Drift.Component
import TickWorld.Proofs.Registry.Walk

namespace TickWorld

open ComponentKind (name)

variable {κ : Type} [DecidableEq κ] [ComponentKind κ]

/-- A query does not show an entity, nor does it count it. -/
structure Query.Overlooks {q : List κ} (x : Query κ q) (e : Entity) : Prop where
  has : x.has e = false
  get? : x.get? e = none
  entities : e ∉ x.entities
  count : x.count = x.entities.length
  /-- A walk is the same whatever would be done to the entity. -/
  forEach : ∀ {σ : Type} (f f' : σ → Entity → Row Value q → σ × Row Value q) (s : σ),
    (∀ s e', e' ≠ e → f s e' = f' s e') → x.forEach f s = x.forEach f' s

/-- A registry does not show an entity, nor does it count it. -/
structure Registry.Overlooks (r : Registry κ) (e : Entity) : Prop where
  get? : ∀ k, r.get? e k = none
  modify : ∀ k f, r.modify e k f = r
  has : ∀ q, r.has e q = false
  getMany : ∀ q, r.getMany e q = .error (.deadEntity e)
  delete : ∀ q, r.delete e q = ⟨.error (.deadEntity e), r, #[]⟩
  componentNames : r.componentNames e = []
  matching : ∀ q, e ∉ r.matching q
  count : ∀ q, r.count q = (r.matching q).length
  destroyWith : ∀ q, (r.destroyWith q).result = (r.matching q).length ∧
    ∀ e', e' ∈ (r.destroyWith q).state.entities ↔ e' ∈ r.entities ∧ e' ∉ r.matching q
  forEach : ∀ {σ : Type} q (f f' : σ → Entity → Row Value q → σ × Row Value q) (s : σ),
    (∀ s e', e' ≠ e → f s e' = f' s e') → r.forEach q f s = r.forEach q f' s
  query : ∀ q x, r.query q = .ok x → ∀ ws, (x.after ws).Overlooks e

namespace Pools

variable {q : List κ} {e : Entity} {σ : Type}

theorem foldl_visit_congr {es : Array Entity} (he : e ∉ es.toList)
    {f f' : σ → Entity → Row Value q → σ × Row Value q}
    (hf : ∀ s e', e' ≠ e → f s e' = f' s e') (a : Nat × σ × Pools κ) :
    es.foldl (visit q f) a = es.foldl (visit q f') a := by
  rw [← Array.foldl_toList, ← Array.foldl_toList]
  apply List.foldl_ext
  rintro ⟨n, s, t⟩ e' he'
  have hne : e' ≠ e := fun hs => he (hs ▸ he')
  simp only [visit, hf s e' hne]

end Pools

theorem Query.Views.overlooks {q : List κ} {x : Query κ q} {r : Registry κ} {e : Entity}
    (hx : x.Views r) (h : r.Valid) (he : r.isLive e = false) : x.Overlooks e := by
  have hlive : x.live.has e = false := by
    rw [hx.live]
    exact he
  have hmem : e ∉ x.live.toList := by
    rw [hx.live]
    exact h.isLive_eq_false_iff.mp he
  constructor
  · rw [has, hlive, Bool.false_and]
  · rw [get?, hlive, if_neg Bool.false_ne_true]
  · exact fun hm => hmem (List.mem_filter.mp hm).1
  · exact List.countP_eq_length_filter
  · intro σ f f' s hf
    simp only [Query.forEach]
    rw [Pools.foldl_visit_congr hmem hf]

namespace Registry

variable {r : Registry κ} {t : Pools κ} {e e' : Entity} {k : κ} {q : List κ}

theorem Valid.overlooks (h : r.Valid) (he : r.isLive e = false) : r.Overlooks e where
  get? k := by rw [Registry.get?, he, if_neg Bool.false_ne_true]
  modify k f := by rw [Registry.modify, he, if_neg Bool.false_ne_true]
  has q := by rw [Registry.has, he, Bool.false_and]
  getMany q := by rw [Registry.getMany, he, if_neg Bool.false_ne_true]
  delete q := by rw [Registry.delete, he, if_neg Bool.false_ne_true]
  componentNames := by rw [Registry.componentNames, he, if_neg Bool.false_ne_true]
  matching q hm := h.isLive_eq_false_iff.mp he (mem_entities_of_mem_matching hm)
  count q := List.countP_eq_length_filter
  destroyWith q :=
    ⟨rfl, (h.foldl_retire (h.matching_nodup q) fun _ => mem_entities_of_mem_matching).2⟩
  forEach q f f' s hf := by
    have hm := h.isLive_eq_false_iff.mp he
    simp only [Registry.forEach]
    rw [Pools.foldl_visit_congr hm hf]
  query q x hx ws := ((h.views_query hx).1.after h ws).overlooks h he

/-- No pool holds a value of an entity. -/
def Bare (r : Registry κ) (e : Entity) : Prop := ∀ p ∈ r.pools.pools, p.has e = false

theorem bare_iff (h : r.pools.Valid) : r.Bare e ↔ ∀ k, r.pools.value? e k = none := by
  constructor
  · intro hb k
    rw [← h.owns_eq_false_iff, Pools.owns]
    cases hp : r.pools.get? k with
    | none => rfl
    | some p =>
      obtain ⟨slot, hs⟩ := h.get?_eq_some_iff.mp hp
      exact hb _ (Array.mem_of_getElem? hs)
  · intro hv p hp
    rw [h.has_of_mem hp, h.owns_eq_false_iff]
    exact hv p.kind

omit [DecidableEq κ] in
theorem Bare.componentNames (h : r.Bare e) : r.componentNames e = [] := by
  have hn : r.pools.namesOwned e = [] := by
    rw [Pools.namesOwned, List.map_eq_nil_iff, List.filter_eq_nil_iff]
    intro p hp
    simp [h p (Array.mem_toList_iff.mp hp)]
  rw [Registry.componentNames, hn, ite_self]

omit [DecidableEq κ] in
theorem Bare.countOwned (h : r.Bare e) : r.pools.countOwned e = 0 := by
  rw [Pools.countOwned, Array.countP_eq_zero]
  intro p hp
  simp [h p hp]

/-- Creation drops what pools held for the number that it takes, and nothing else. -/
theorem Valid.value?_create (h : r.Valid) (he : r.create.result ≠ .ok e) (k : κ) :
    r.create.state.pools.value? e k = r.pools.value? e k ∧
      r.create.state.get? e k = r.get? e k := by
  rcases h.create_cases with ⟨e', r₀, ht, hc, hl, hp, -⟩ | ⟨-, hc⟩
  · rw [hc] at he ⊢
    have hne : e ≠ e' := by
      intro hs
      apply he
      rw [hs]
      rfl
    have hg : r₀.get? e k = r.get? e k := by
      rw [Registry.get?, Registry.get?, isLive, isLive, hl, hp]
    constructor
    · rw [← hp]
      exact (ht.pools.value?_eraseEntity e' e k).trans (if_neg hne)
    · rw [ht.get?_enliven, if_neg hne, hg]
  · rw [hc]
    exact ⟨rfl, rfl⟩

theorem Valid.bare_create (h : r.Valid) (he : r.create.result = .ok e) :
    r.create.state.Bare e := by
  rcases h.create_cases with ⟨e', r₀, ht, hc, -⟩ | ⟨-, hc⟩
  · rw [hc] at he ⊢
    cases he
    rw [bare_iff ht.enliven.pools]
    intro k
    exact (ht.pools.value?_eraseEntity e e k).trans (if_pos rfl)
  · rw [hc] at he
    cases he

/-- Pools hold values of live entities only. -/
def Tidy (r : Registry κ) : Prop := ∀ e k, r.isLive e = false → r.pools.value? e k = none

theorem Tidy.withPools (ht : r.Tidy) (he : r.isLive e = true)
    (hv : ∀ e', e' ≠ e → ∀ k, t.value? e' k = r.pools.value? e' k) :
    ({ r with pools := t } : Registry κ).Tidy := by
  intro e' k he'
  have hd : r.isLive e' = false := he'
  have hne : e' ≠ e := by
    rintro rfl
    simp [he] at hd
  rw [hv e' hne]
  exact ht e' k hd

theorem Tidy.alike (ht : r.Tidy) (h : r.pools.Valid) (h' : t.Valid) (ha : r.pools.Alike t) :
    ({ r with pools := t } : Registry κ).Tidy := by
  intro e k he
  rw [← h'.owns_eq_false_iff, ha.owns, h.owns_eq_false_iff]
  exact ht e k he

theorem Tidy.create (ht : r.Tidy) (h : r.Valid) : r.create.state.Tidy := by
  rcases h.create_cases with ⟨e, r₀, hn, hc, hl, hp, -⟩ | ⟨-, hc⟩
  · rw [hc]
    intro e' k he'
    rw [hn.enliven.isLive_eq_false_iff, hn.entities_enliven, List.mem_append, not_or] at he'
    have hd : r.isLive e' = false := by
      rw [isLive, ← hl]
      exact hn.live.has_eq_false_iff.mpr he'.1
    refine (hn.pools.value?_eraseEntity e e' k).trans ?_
    rw [hp, ht e' k hd, ite_self]
  · rw [hc]
    exact ht

theorem Tidy.foldl_retire {es : List Entity} (ht : r.Tidy) (h : r.Valid) (hn : es.Nodup)
    (hl : ∀ e ∈ es, e ∈ r.entities) : (es.foldl Registry.retire r).Tidy := by
  obtain ⟨hv, hm⟩ := h.foldl_retire hn hl
  intro e k he
  rw [hv.isLive_eq_false_iff, hm] at he
  rw [value?_foldl_retire h.pools]
  split
  · rfl
  · rename_i hs
    exact ht e k (h.isLive_eq_false_iff.mpr fun hm => he ⟨hm, hs⟩)

theorem Tidy.retire (ht : r.Tidy) (h : r.Valid) (he : e ∈ r.entities) : (r.retire e).Tidy := by
  have hn : [e].Nodup := by simp
  exact ht.foldl_retire h hn (by simpa using he)

theorem Tidy.destroyCounting (ht : r.Tidy) (h : r.Valid) (n : Nat) (es : List Entity) :
    (r.destroyCounting n es).state.Tidy := by
  induction es generalizing r n with
  | nil => exact ht
  | cons e es ih =>
    rw [Registry.destroyCounting]
    split
    · rename_i he
      rw [h.isLive_iff] at he
      exact ih (ht.retire h he) (h.retire he) _
    · exact ht

theorem Tidy.perform (ht : r.Tidy) (h : r.Valid) (c : Command κ) : (c.perform r).state.Tidy := by
  cases c with
  | create => exact ht.create h
  | destroy e =>
    simp only [Command.perform, destroy]
    split
    · rename_i he
      exact ht.retire h (h.isLive_iff.mp he)
    · exact ht
  | destroyMany es => exact ht.destroyCounting h 0 es
  | destroyWith q =>
    exact ht.foldl_retire h (h.matching_nodup q) fun _ => mem_entities_of_mem_matching
  | reset => exact fun e k _ => h.pools.value?_clear e k
  | assign e k value =>
    simp only [Command.perform, assign_eq]
    split
    · rename_i hl
      exact ht.withPools hl fun e' he => h.pools.value?_updateOrCreate_of_same
        (fun p hp => hp.assign e value) fun p hp => hp.get?_assign_of_ne he value
    · exact ht
  | replace e k value =>
    simp only [Command.perform, replace_eq]
    split
    · rename_i hl
      exact ht.withPools hl fun e' he => h.pools.value?_update_of_same
        (fun p hp => hp.replace e value) fun p hp => hp.get?_replace_of_ne he value
    · exact ht
  | assignOrReplace e k value =>
    simp only [Command.perform, assignOrReplace_eq]
    split
    · rename_i hl
      exact ht.withPools hl fun e' he => h.pools.value?_updateOrCreate_of_same
        (fun p hp => hp.assignOrReplace e value) fun p hp => hp.get?_assignOrReplace_of_ne he value
    · exact ht
  | delete e q =>
    simp only [Command.perform, delete]
    split
    · rename_i hl
      split
      · exact ht
      · split
        · exact ht
        · apply ht.withPools hl
          intro e' he k
          rw [h.pools.value?_deleteAll, if_neg fun hs => he hs.1]
    · exact ht
  | resetPools q =>
    intro e k he
    refine (h.pools.value?_clearAll q e k).trans ?_
    rw [ht e k he, ite_self]
  | modify e k f =>
    simp only [Command.perform, modify]
    split
    · exact ht.alike h.pools (h.pools.modify fun p hp => hp.modify e f) (h.pools.alike_write e f)
    · exact ht
  | modifyMany e q f =>
    simp only [Command.perform, modifyMany]
    split
    · exact ht
    · exact ht.alike h.pools (h.pools.store e _) (h.pools.alike_store e _)

end Registry

/-- Whether an action puts a value directly into a pool for live entities only. -/
def Action.Tidy (r : Registry κ) : Action κ → Prop
  | writePool k w => ∀ p, r.pool? k = some p →
      ∀ e ∈ (w.run p).entities, e ∈ p.entities ∨ r.isLive e = true
  | _ => True

namespace Registry

variable {r : Registry κ}

theorem Tidy.run (ht : r.Tidy) (h : r.Valid) (a : Action κ) (ha : a.Tidy r) :
    (a.run r).Tidy := by
  cases a with
  | command c => exact ht.perform h c
  | deleteOwned e q =>
    intro e' k he
    refine (h.pools.value?_deleteAll e e' q k).trans ?_
    rw [ht e' k he, ite_self]
  | reserve n =>
    simp only [Action.run]
    split
    · rename_i r' hr
      obtain ⟨hv, hl, -, -, hp⟩ := h.reserve hr
      intro e k he
      rw [hv.isLive_eq_false_iff, hl, ← h.isLive_eq_false_iff] at he
      rw [hp]
      exact ht e k he
    · exact ht
  | reservePool k n =>
    intro e k' he
    refine (h.pools.value?_updateOrCreate_of_same ?_ ?_ k').trans (ht e k' he)
    · exact fun p hp => hp.reserve n
    · exact fun p hp => hp.get?_reserve n e
  | forEach q f s =>
    cases hc : r.pools.claim [] q with
    | error cause =>
      simp only [Action.run, Registry.forEach, hc]
      exact ht
    | ok =>
      obtain ⟨-, t, hv, halike, hs⟩ := h.forEach f s hc
      simp only [Action.run]
      rw [hs]
      exact ht.alike h.pools hv halike
  | query q ws =>
    simp only [Action.run]
    split
    · rename_i x hx
      have hx := (h.views_query hx).1.after h ws
      exact ht.alike h.pools hx.pools hx.alike
    · exact ht
  | writePool k w =>
    intro e k' he
    have hf : ∀ p : Pool k, p.Valid → (w.run p).Valid := fun _ hp => hp.write w
    by_cases hk : k' = k
    · subst k'
      refine (h.pools.value?_modify_self hf e).trans ?_
      cases hp : r.pools.get? k with
      | none => rfl
      | some p =>
        have hn := ht e k he
        rw [Pools.value?, hp, Option.bind_some, (h.pools.pool hp).get?_eq_none_iff] at hn
        rw [Option.bind_some, (hf p (h.pools.pool hp)).get?_eq_none_iff]
        intro hm
        -- The write added no entity that is not alive.
        rcases ha p hp e hm with ho | hl
        · exact hn ho
        · have hd : r.isLive e = false := he
          simp [hl] at hd
    · exact (h.pools.value?_modify_of_ne hf hk e).trans (ht e k' he)

/-- The registries that are reached without putting a value into a pool for a number that is not
alive. -/
inductive TidilyReachable : Registry κ → Prop where
  | ofSizing {sizing : Sizing} {r : Registry κ} : ofSizing sizing = .ok r → TidilyReachable r
  | act {r : Registry κ} (a : Action κ) : TidilyReachable r → a.Tidy r → TidilyReachable (a.run r)

theorem TidilyReachable.reachable (h : r.TidilyReachable) : r.Reachable := by
  induction h with
  | ofSizing hr => exact .ofSizing hr
  | act a _ _ ih => exact .act a ih

theorem tidy_ofSizing {sizing : Sizing} (hr : ofSizing sizing = .ok r) : r.Tidy := by
  rw [ofSizing_eq_ok hr]
  intro e k _
  rfl

theorem TidilyReachable.tidy (h : r.TidilyReachable) : r.Tidy := by
  induction h with
  | ofSizing hr => exact tidy_ofSizing hr
  | act a hr ha ih => exact ih.run hr.reachable.valid a ha

variable {p : AnyPool κ}

theorem Tidy.isLive_of_mem (ht : r.Tidy) (h : r.Valid) (hp : p ∈ r.pools.pools) {e : Entity}
    (he : e ∈ p.pool.entities) : r.isLive e = true := by
  cases hl : r.isLive e with
  | true => rfl
  | false =>
    have hb := (bare_iff h.pools).mpr fun k => ht e k hl
    rw [← (h.pools.pool (h.pools.get?_of_mem hp)).has_iff] at he
    exact (hb p hp).symm.trans he

theorem Tidy.size_eq_count (ht : r.Tidy) (h : r.Valid) (hp : p ∈ r.pools.pools) :
    p.pool.size = r.count [p.kind] := by
  have hv := h.pools.pool (h.pools.get?_of_mem hp)
  have hm : p.pool.entities.Perm (r.matching [p.kind]) := by
    apply (List.perm_ext_iff_of_nodup hv.owners.nodup (h.matching_nodup _)).mpr
    intro e
    change e ∈ p.pool.entities ↔ _
    have ho := h.pools.has_of_mem hp e
    have hn : [p.kind].Nodup := by simp
    rw [matching, List.mem_filter, Pools.ownsAll_iff, ← hv.has_iff, ← h.isLive_iff]
    simp only [List.mem_singleton, forall_eq, ← ho]
    exact ⟨fun he => ⟨ht.isLive_of_mem h hp (hv.has_iff.mp he), hn, he⟩, fun he => he.2.2⟩
  calc p.pool.size
    _ = p.pool.entities.length := by
      rw [Pool.size, hv.aligned, Pool.entities, SparseSet.toList, Array.length_toList]
    _ = (r.matching [p.kind]).length := hm.length_eq
    _ = r.count [p.kind] := List.countP_eq_length_filter.symm

theorem Tidy.poolSizes (ht : r.Tidy) (h : r.Valid) :
    r.poolSizes = r.pools.pools.toList.map fun p => (name p.kind, r.count [p.kind]) := by
  apply List.map_congr_left
  intro p hp
  rw [AnyPool.count, ht.size_eq_count h (Array.mem_toList_iff.mp hp)]

theorem Tidy.not_dropped (ht : r.Tidy) (h : r.Valid) (e : Entity) (n : Nat) :
    .droppedComponents e n ∉ r.create.events := by
  rcases h.create_cases with ⟨e', r₀, hn, hc, hl, hp, -⟩ | ⟨-, hc⟩
  · have hd : r.isLive e' = false := by
      rw [isLive, ← hl]
      exact hn.live.has_eq_false_iff.mpr hn.not_mem
    have hb : r₀.Bare e' := by
      rw [bare_iff hn.pools, hp]
      exact fun k => ht e' k hd
    rw [hc]
    simp only [enliven, hb.countOwned, if_true]
    split <;> simp
  · simp [hc]

end Registry

/-- In every reachable registry, whatever was written into its pools, an entity that is not alive
is not shown; one that is created owns nothing, and no other gains or loses by it. If no value was
ever put into a pool for a number that was not alive, the pools hold values of live entities only,
their sizes are the numbers of entities with a component, and creation has nothing to drop. -/
theorem dead_own_nothing :
    (∀ r : Registry κ, r.Reachable →
      (∀ e, r.isLive e = false → r.Overlooks e) ∧
      (∀ e, r.create.result = .ok e → r.create.state.Bare e ∧
        r.create.state.componentNames e = [] ∧ ∀ k, r.create.state.get? e k = none) ∧
      ∀ e, r.create.result ≠ .ok e → ∀ k,
        r.create.state.pools.value? e k = r.pools.value? e k ∧
          r.create.state.get? e k = r.get? e k) ∧
    ∀ r : Registry κ, r.TidilyReachable →
      (∀ p ∈ r.pools.pools, ∀ e ∈ p.pool.entities, r.isLive e = true) ∧
      r.poolSizes = r.pools.pools.toList.map (fun p => (name p.kind, r.count [p.kind])) ∧
      ∀ e n, .droppedComponents e n ∉ r.create.events := by
  refine ⟨fun r hr => ⟨?_, ?_, ?_⟩, fun r hr => ?_⟩
  · intro e he
    exact hr.valid.overlooks he
  · intro e he
    have hb := hr.valid.bare_create he
    refine ⟨hb, hb.componentNames, ?_⟩
    intro k
    rw [hr.valid.create.get?_eq, (Registry.bare_iff hr.valid.create.pools).mp hb, ite_self]
  · intro e he k
    exact hr.valid.value?_create he k
  · have h := hr.reachable.valid
    exact ⟨fun p hp e he => hr.tidy.isLive_of_mem h hp he, hr.tidy.poolSizes h,
      hr.tidy.not_dropped h⟩

/-- Health is put into the pool for a number that was not issued yet; the entity that is created
with that number has none. -/
theorem dead_own_nothing_refilled :
    ∃ (r : Registry (Drift.Kind Empty)) (refill : Action (Drift.Kind Empty)),
      r.TidilyReachable ∧ (∀ e n, .droppedComponents e n ∉ r.create.events) ∧
      refill = .writePool .health (.assign ⟨1⟩ (Drift.Health.full 6)) ∧
      (refill.run r).pools.owns ⟨1⟩ .health = true ∧ (refill.run r).Overlooks ⟨1⟩ ∧
      (refill.run r).create.result = .ok ⟨1⟩ ∧ (refill.run r).create.state.Bare ⟨1⟩ := by
  let r₀ : Registry (Drift.Kind Empty) := { sizing := ⟨0, 0⟩ }
  let give : Action (Drift.Kind Empty) := .command (.assign ⟨0⟩ .health (Drift.Health.full 9))
  let refill : Action (Drift.Kind Empty) := .writePool .health (.assign ⟨1⟩ (Drift.Health.full 6))
  let r := give.run (Action.run (.command .create) r₀)
  have hz : Registry.ofSizing ⟨0, 0⟩ = .ok r₀ := rfl
  have hr : r.TidilyReachable := .act give (.act _ (.ofSizing hz) trivial) trivial
  have hr' : (refill.run r).Reachable := .act refill hr.reachable
  have ho : (refill.run r).pools.owns ⟨1⟩ .health = true := by decide +kernel
  have hd : (refill.run r).isLive ⟨1⟩ = false := by decide
  have hc : (refill.run r).create.result = .ok ⟨1⟩ := by decide
  exact ⟨r, refill, hr, (dead_own_nothing.2 r hr).2.2, rfl, ho,
    (dead_own_nothing.1 _ hr').1 _ hd, hc, ((dead_own_nothing.1 _ hr').2.1 _ hc).1⟩

end TickWorld
