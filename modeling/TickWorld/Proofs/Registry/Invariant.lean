import TickWorld.Proofs.Storage.Rows
import TickWorld.Proofs.Registry.Action

namespace TickWorld

variable {κ : Type} [DecidableEq κ] [ComponentKind κ]

namespace Registry

/-- The sets and the pools are valid, and each issued number is either live or waiting. -/
structure Valid (r : Registry κ) : Prop where
  live : r.live.Valid
  recycled : r.recycled.Valid
  pools : r.pools.Valid
  partition :
    ((r.entities ++ r.recycled.toList).map Entity.index).Perm (List.range r.issued)
  issued_le : r.issued ≤ Entity.null.index

variable {r : Registry κ} {e e' : Entity} {es : List Entity} {k : κ} {q : List κ} {t : Pools κ}

theorem Valid.isLive_iff (h : r.Valid) : r.isLive e = true ↔ e ∈ r.entities := h.live.has_iff

theorem Valid.isLive_eq_false_iff (h : r.Valid) : r.isLive e = false ↔ e ∉ r.entities :=
  h.live.has_eq_false_iff

theorem Valid.get?_eq (h : r.Valid) (e : Entity) (k : κ) :
    r.get? e k = if e ∈ r.entities then r.pools.value? e k else none := by
  simp only [get?, h.isLive_iff, Pools.value?]

theorem Valid.nodup_append (h : r.Valid) : (r.entities ++ r.recycled.toList).Nodup := by
  have hn := h.partition.nodup_iff.mpr List.nodup_range
  exact List.Pairwise.of_map Entity.index (fun a b hab he => hab (congrArg _ he)) hn

theorem Valid.disjoint (h : r.Valid) (he : e ∈ r.entities) : e ∉ r.recycled.toList :=
  fun hw => (List.nodup_append.mp h.nodup_append).2.2 e he e hw rfl

theorem Valid.mem_append_iff (h : r.Valid) :
    e ∈ r.entities ++ r.recycled.toList ↔ e.index < r.issued := by
  rw [← List.mem_range, ← h.partition.mem_iff, List.mem_map]
  refine ⟨fun he => ⟨e, he, rfl⟩, ?_⟩
  intro hx
  obtain ⟨e', he', hi⟩ := hx
  exact Entity.index_inj hi ▸ he'

theorem Valid.withPools (h : r.Valid) (ht : t.Valid) : ({ r with pools := t } : Registry κ).Valid :=
  ⟨h.live, h.recycled, ht, h.partition, h.issued_le⟩

omit [DecidableEq κ] in
theorem ofSizing_eq_ok {sizing : Sizing} (hr : ofSizing sizing = .ok r) :
    r = { live := SparseSet.empty.grow sizing.entityCapacity
          recycled := SparseSet.empty.grow sizing.entityCapacity
          sizing } := by
  simp only [ofSizing] at hr
  split at hr
  · cases hr
  · rename_i live hl
    simp only at hr
    cases hr
    rw [SparseSet.withCapacity_eq_ok hl]

theorem valid_ofSizing {sizing : Sizing} (hr : ofSizing sizing = .ok r) : r.Valid := by
  have hs : ((SparseSet.empty : SparseSet Entity).grow sizing.entityCapacity).Valid :=
    SparseSet.valid_empty.grow _
  rw [ofSizing_eq_ok hr]
  exact ⟨hs, hs, Pools.valid_empty, .refl _, Nat.zero_le _⟩

/-- The entity has an issued number that is neither live nor waiting; all else is as it should
be. -/
structure Taken (r : Registry κ) (e : Entity) : Prop where
  live : r.live.Valid
  recycled : r.recycled.Valid
  pools : r.pools.Valid
  partition :
    ((e :: r.entities ++ r.recycled.toList).map Entity.index).Perm (List.range r.issued)
  issued_le : r.issued ≤ Entity.null.index

theorem Taken.not_mem (h : r.Taken e) : e ∉ r.entities := by
  have hn := h.partition.nodup_iff.mpr List.nodup_range
  have hd := List.Pairwise.of_map Entity.index (fun a b hab he => hab (congrArg _ he)) hn
  rw [List.cons_append, List.pairwise_cons] at hd
  exact fun he => hd.1 e (List.mem_append_left _ he) rfl

theorem Taken.index_lt (h : r.Taken e) : e.index < r.issued := by
  rw [← List.mem_range, ← h.partition.mem_iff]
  simp

theorem Taken.ne_null (h : r.Taken e) : e ≠ Entity.null := by
  rintro rfl
  exact Nat.lt_irrefl _ (Nat.lt_of_lt_of_le h.index_lt h.issued_le)

theorem Taken.enliven (h : r.Taken e) : (r.enliven e).state.Valid := by
  refine ⟨h.live.insert e, h.recycled, h.pools.eraseEntity e, ?_, h.issued_le⟩
  have hl : (r.live.insert e).toList = r.live.toList ++ [e] :=
    (h.live.toList_insert e).trans (if_neg h.not_mem)
  have hp : ((r.live.insert e).toList ++ r.recycled.toList).Perm
      (e :: r.live.toList ++ r.recycled.toList) := by
    rw [hl]
    exact (List.perm_append_singleton e _).append_right _
  exact (hp.map _).trans h.partition

theorem Taken.entities_enliven (h : r.Taken e) :
    (r.enliven e).state.entities = r.entities ++ [e] :=
  (h.live.toList_insert e).trans (if_neg h.not_mem)

theorem Taken.get?_enliven (h : r.Taken e) (e' : Entity) (k : κ) :
    (r.enliven e).state.get? e' k = if e' = e then none else r.get? e' k := by
  have hm : r.isLive e' = true ↔ e' ∈ r.entities := h.live.has_iff
  have hv : (r.enliven e).state.pools.value? e' k = if e' = e then none else r.pools.value? e' k :=
    h.pools.value?_eraseEntity e e' k
  rw [h.enliven.get?_eq, h.entities_enliven, hv, get?, ← Pools.value?]
  by_cases he : e' = e <;> simp [he, hm]

theorem Valid.takeRecycled (h : r.Valid) (he : r.recycled.first? = some e) :
    ({ r with recycled := r.recycled.erase e } : Registry κ).Taken e := by
  have hm : e ∈ r.recycled.toList := by
    simpa [SparseSet.toList] using Array.mem_of_getElem? he
  refine ⟨h.live, h.recycled.erase e, h.pools, ?_, h.issued_le⟩
  have hp : (e :: r.entities ++ (r.recycled.erase e).toList).Perm
      (r.entities ++ r.recycled.toList) :=
    calc (e :: r.entities ++ (r.recycled.erase e).toList)
      _ |>.Perm (r.entities ++ e :: (r.recycled.erase e).toList) := List.perm_middle.symm
      _ |>.Perm (r.entities ++ r.recycled.toList) :=
        (h.recycled.toList_erase_perm hm).symm.append_left _
  exact (hp.map _).trans h.partition

theorem Valid.takeFresh (h : r.Valid) (hi : r.issued < Entity.null.index) :
    ({ r with issued := r.issued + 1 } : Registry κ).Taken (.ofNat r.issued) := by
  refine ⟨h.live, h.recycled, h.pools, ?_, hi⟩
  have hx : (Entity.ofNat r.issued).index = r.issued := by
    apply Entity.index_ofNat
    rw [Entity.index_null] at hi
    omega
  rw [List.cons_append, List.map_cons, hx, List.range_succ]
  exact (h.partition.cons _).trans (List.perm_append_singleton _ _).symm

theorem Valid.size_add (h : r.Valid) : r.size + r.recycled.size = r.issued := by
  have hl := h.partition.length_eq
  simpa [entities, SparseSet.toList, Registry.size, SparseSet.size] using hl

/-- Creation takes a number, from the waiting ones or a new one, and lets it live; it fails only
if all numbers live. -/
theorem Valid.create_cases (h : r.Valid) :
    (∃ (e : Entity) (r₀ : Registry κ), r₀.Taken e ∧ r.create = r₀.enliven e ∧
      r₀.live = r.live ∧ r₀.pools = r.pools ∧ r.issued ≤ r₀.issued) ∨
    (r.size = Entity.null.index ∧ r.create = ⟨.error .entitiesExhausted, r, #[]⟩) := by
  rw [create]
  split
  · rename_i e he
    exact .inl ⟨e, _, h.takeRecycled he, rfl, rfl, rfl, Nat.le_refl _⟩
  · rename_i hn
    split
    · rename_i hi
      exact .inl ⟨_, _, h.takeFresh hi, rfl, rfl, rfl, Nat.le_succ _⟩
    · rename_i hi
      -- No number waits and none can be issued, so all of them are live.
      have hw : r.recycled.size = 0 := by
        simpa [SparseSet.first?, SparseSet.size] using hn
      have hs := h.size_add
      have hle := h.issued_le
      exact .inr ⟨by omega, rfl⟩

theorem Valid.create (h : r.Valid) : r.create.state.Valid := by
  rcases h.create_cases with ⟨e, r₀, ht, hc, -⟩ | ⟨-, hc⟩
  · rw [hc]
    exact ht.enliven
  · rw [hc]
    exact h

theorem Valid.retire (h : r.Valid) (he : e ∈ r.entities) : (r.retire e).Valid := by
  refine ⟨h.live.erase e, h.recycled.insert e, h.pools.eraseEntity e, ?_, h.issued_le⟩
  have hw : (r.recycled.insert e).toList = r.recycled.toList ++ [e] := by
    rw [h.recycled.toList_insert, if_neg (h.disjoint he)]
  have hp : ((r.live.erase e).toList ++ (r.recycled.insert e).toList).Perm
      (r.live.toList ++ r.recycled.toList) :=
    calc ((r.live.erase e).toList ++ (r.recycled.insert e).toList)
      _ = (r.live.erase e).toList ++ (r.recycled.toList ++ [e]) := by rw [hw]
      _ |>.Perm ((r.live.erase e).toList ++ e :: r.recycled.toList) :=
        (List.perm_append_singleton e _).append_left _
      _ |>.Perm (e :: (r.live.erase e).toList ++ r.recycled.toList) := List.perm_middle
      _ |>.Perm (r.live.toList ++ r.recycled.toList) :=
        (h.live.toList_erase_perm he).symm.append_right _
  exact (hp.map _).trans h.partition

theorem Valid.mem_retire (h : r.Valid) :
    e' ∈ (r.retire e).entities ↔ e' ∈ r.entities ∧ e' ≠ e := h.live.mem_erase

theorem Valid.destroy (h : r.Valid) (e : Entity) : (r.destroy e).state.Valid := by
  rw [Registry.destroy]
  split
  · rename_i he
    exact h.retire (h.isLive_iff.mp he)
  · exact h

theorem Valid.destroyCounting (h : r.Valid) (es : List Entity) (n : Nat) :
    (r.destroyCounting n es).state.Valid := by
  induction es generalizing r n with
  | nil => exact h
  | cons e es ih =>
    rw [Registry.destroyCounting]
    split
    · rename_i he
      exact ih (h.retire (h.isLive_iff.mp he)) _
    · exact h

theorem Valid.live_retire (h : r.Valid) (hn : (e :: es).Nodup)
    (hl : ∀ e' ∈ e :: es, e' ∈ r.entities) : ∀ e' ∈ es, e' ∈ (r.retire e).entities := by
  intro e' he'
  rw [h.mem_retire]
  exact ⟨hl e' (by simp [he']), fun he => (List.nodup_cons.mp hn).1 (he ▸ he')⟩

omit [DecidableEq κ] in
theorem foldl_retire_eq (r : Registry κ) (es : List Entity) :
    es.foldl Registry.retire r =
      { r with
        live := es.foldl (·.erase ·) r.live
        recycled := es.foldl (·.insert ·) r.recycled
        pools := es.foldl (·.eraseEntity ·) r.pools } := by
  induction es generalizing r with
  | nil => rfl
  | cons e es ih => exact ih _

/-- Retiring distinct live entities: each is still live when its turn comes. -/
theorem Valid.foldl_retire (h : r.Valid) (hn : es.Nodup) (hl : ∀ e ∈ es, e ∈ r.entities) :
    (es.foldl Registry.retire r).Valid ∧
      ∀ e, e ∈ (es.foldl Registry.retire r).entities ↔ e ∈ r.entities ∧ e ∉ es := by
  induction es generalizing r with
  | nil => exact ⟨h, by simp⟩
  | cons e es ih =>
    obtain ⟨hv, hm⟩ := ih (h.retire (hl e (by simp))) (List.nodup_cons.mp hn).2
      (h.live_retire hn hl)
    refine ⟨hv, ?_⟩
    intro e'
    rw [List.foldl_cons, hm, h.mem_retire, List.mem_cons]
    grind

theorem value?_foldl_retire (h : r.pools.Valid) (es : List Entity) (e : Entity) (k : κ) :
    (es.foldl Registry.retire r).pools.value? e k =
      if e ∈ es then none else r.pools.value? e k := by
  induction es generalizing r with
  | nil => simp
  | cons e' es ih =>
    have hr : (r.retire e').pools.value? e k = if e = e' then none else r.pools.value? e k :=
      h.value?_eraseEntity e' e k
    rw [List.foldl_cons, ih (r := r.retire e') (h.eraseEntity e'), hr]
    by_cases he : e = e' <;> simp [he]

theorem Valid.matching_nodup (h : r.Valid) (q : List κ) : (r.matching q).Nodup :=
  h.live.nodup.filter _

theorem mem_entities_of_mem_matching (he : e ∈ r.matching q) : e ∈ r.entities :=
  (List.mem_filter.mp he).1

theorem Valid.destroyWith (h : r.Valid) (q : List κ) : (r.destroyWith q).state.Valid :=
  (h.foldl_retire (h.matching_nodup q) fun _ => mem_entities_of_mem_matching).1

theorem Valid.reset (h : r.Valid) : r.reset.state.Valid := by
  have hp : (r.recycled.toList ++ r.entities).Perm (r.entities ++ r.recycled.toList) :=
    List.perm_append_comm
  obtain ⟨hv, hs⟩ := h.recycled.foldl_insert (hp.nodup_iff.mpr h.nodup_append)
  refine ⟨r.live.valid_clear, hv, h.pools.clear, ?_, h.issued_le⟩
  have he : r.reset.state.entities ++ r.reset.state.recycled.toList =
      r.recycled.toList ++ r.entities := by
    simpa [Registry.reset, entities, SparseSet.clear, SparseSet.toList] using hs
  rw [he]
  exact (hp.map _).trans h.partition

theorem assign_eq (r : Registry κ) (e : Entity) (k : κ) (value : Value k) :
    r.assign e k value =
      if r.isLive e then
        (r.pools.updateOrCreate k r.sizing.poolCapacity (·.assign e value)).mapState
          fun t => { r with pools := t }
      else ⟨.error (.deadEntity e), r, #[]⟩ := rfl

theorem assignOrReplace_eq (r : Registry κ) (e : Entity) (k : κ) (value : Value k) :
    r.assignOrReplace e k value =
      if r.isLive e then
        (r.pools.updateOrCreate k r.sizing.poolCapacity (·.assignOrReplace e value)).mapState
          fun t => { r with pools := t }
      else ⟨.error (.deadEntity e), r, #[]⟩ := rfl

theorem replace_eq (r : Registry κ) (e : Entity) (k : κ) (value : Value k) :
    r.replace e k value =
      if r.isLive e then
        let (result, t) := r.pools.update k
          (.error (.unregisteredComponent (ComponentKind.name k))) (·.replace e value)
        ⟨result, { r with pools := t }, #[]⟩
      else ⟨.error (.deadEntity e), r, #[]⟩ := rfl

theorem exists_pools_perform {c : Command κ} (hc : c.aboutComponents = true) (r : Registry κ) :
    ∃ t : Pools κ, (c.perform r).state = { r with pools := t } := by
  cases c with
  | create => cases hc
  | destroy e => cases hc
  | destroyMany es => cases hc
  | destroyWith q => cases hc
  | reset => cases hc
  | assign e k value =>
    simp only [Command.perform, assign_eq]
    split
    · exact ⟨_, rfl⟩
    · exact ⟨r.pools, rfl⟩
  | replace e k value =>
    simp only [Command.perform, replace_eq]
    split
    · exact ⟨_, rfl⟩
    · exact ⟨r.pools, rfl⟩
  | assignOrReplace e k value =>
    simp only [Command.perform, assignOrReplace_eq]
    split
    · exact ⟨_, rfl⟩
    · exact ⟨r.pools, rfl⟩
  | delete e q =>
    simp only [Command.perform, Registry.delete]
    split
    · split
      · exact ⟨r.pools, rfl⟩
      · split
        · exact ⟨r.pools, rfl⟩
        · exact ⟨_, rfl⟩
    · exact ⟨r.pools, rfl⟩
  | resetPools q => exact ⟨_, rfl⟩
  | modify e k f =>
    simp only [Command.perform, Registry.modify]
    split
    · exact ⟨_, rfl⟩
    · exact ⟨r.pools, rfl⟩
  | modifyMany e q f =>
    simp only [Command.perform, Registry.modifyMany]
    split
    · exact ⟨r.pools, rfl⟩
    · exact ⟨_, rfl⟩

theorem exists_pools_run {a : Action κ} (ha : a.aboutComponents = true) (r : Registry κ) :
    ∃ t : Pools κ, a.run r = { r with pools := t } := by
  cases a with
  | command c => exact exists_pools_perform ha r
  | deleteOwned e q => exact ⟨_, rfl⟩
  | reserve n => cases ha
  | reservePool k n => exact ⟨_, rfl⟩
  | forEach q f s =>
    simp only [Action.run, Registry.forEach]
    split
    · exact ⟨r.pools, rfl⟩
    · exact ⟨_, rfl⟩
  | query q ws =>
    simp only [Action.run]
    split
    · exact ⟨_, rfl⟩
    · exact ⟨r.pools, rfl⟩
  | writePool k w => exact ⟨_, rfl⟩

theorem Valid.assign (h : r.Valid) (e : Entity) (k : κ) (value : Value k) :
    (r.assign e k value).state.Valid := by
  rw [assign_eq]
  split
  · exact h.withPools (h.pools.updateOrCreate fun p hp => hp.assign e value)
  · exact h

theorem Valid.assignOrReplace (h : r.Valid) (e : Entity) (k : κ) (value : Value k) :
    (r.assignOrReplace e k value).state.Valid := by
  rw [assignOrReplace_eq]
  split
  · exact h.withPools (h.pools.updateOrCreate fun p hp => hp.assignOrReplace e value)
  · exact h

theorem Valid.replace (h : r.Valid) (e : Entity) (k : κ) (value : Value k) :
    (r.replace e k value).state.Valid := by
  rw [replace_eq]
  split
  · exact h.withPools (h.pools.update fun p hp => hp.replace e value)
  · exact h

theorem Valid.reservePool (h : r.Valid) (k : κ) (n : Nat) : (r.reservePool k n).state.Valid :=
  h.withPools (h.pools.updateOrCreate fun _ hp => hp.reserve n)

omit [DecidableEq κ] in
theorem reserve_eq_ok {n : Nat} {r' : Registry κ} (hr : r.reserve n = .ok r') :
    r' = { r with live := r.live.grow n, recycled := r.recycled.grow n } := by
  simp only [Registry.reserve, SparseSet.reserve_eq] at hr
  split at hr
  · cases hr
  · rename_i live hl
    split at hl
    · cases hl
      split at hr
      · cases hr
      · rename_i recycled hw
        split at hw
        · cases hw
          cases hr
          rfl
        · cases hw
    · cases hl

theorem Valid.reserve (h : r.Valid) {n : Nat} {r' : Registry κ} (hr : r.reserve n = .ok r') :
    r'.Valid ∧ r'.entities = r.entities ∧ r'.recycled.toList = r.recycled.toList ∧
      r'.issued = r.issued ∧ r'.pools = r.pools := by
  rw [reserve_eq_ok hr]
  exact ⟨⟨h.live.grow n, h.recycled.grow n, h.pools, h.partition, h.issued_le⟩, rfl, rfl, rfl, rfl⟩

theorem Valid.modify (h : r.Valid) (e : Entity) (k : κ) (f : Value k → Value k) :
    (r.modify e k f).Valid := by
  rw [Registry.modify]
  split
  · exact h.withPools (h.pools.modify fun p hp => hp.modify e f)
  · exact h

theorem Valid.modifyPool (h : r.Valid) (k : κ) (w : Pool.Write k) :
    (r.modifyPool k w.run).Valid :=
  h.withPools (h.pools.modify fun _ hp => hp.write w)

theorem Valid.deleteOwned (h : r.Valid) (e : Entity) (q : List κ) :
    (r.deleteOwned e q).state.Valid :=
  h.withPools (h.pools.deleteAll e q)

theorem Valid.delete (h : r.Valid) (e : Entity) (q : List κ) : (r.delete e q).state.Valid := by
  rw [Registry.delete]
  split
  · split
    · exact h
    · split
      · exact h
      · exact h.withPools (h.pools.deleteAll e q)
  · exact h

theorem Valid.resetPools (h : r.Valid) (q : List κ) : (r.resetPools q).Valid :=
  h.withPools (h.pools.clearAll q)

theorem Valid.modifyMany (h : r.Valid) (e : Entity) (q : List κ)
    (f : Row Value q → Row Value q) : (r.modifyMany e q f).state.Valid := by
  rw [Registry.modifyMany]
  split
  · exact h
  · exact h.withPools (h.pools.store e _)

theorem Valid.perform (h : r.Valid) (c : Command κ) : (c.perform r).state.Valid := by
  cases c with
  | create => exact h.create
  | destroy e => exact h.destroy e
  | destroyMany es => exact h.destroyCounting es 0
  | destroyWith q => exact h.destroyWith q
  | reset => exact h.reset
  | assign e k value => exact h.assign e k value
  | replace e k value => exact h.replace e k value
  | assignOrReplace e k value => exact h.assignOrReplace e k value
  | delete e q => exact h.delete e q
  | resetPools q => exact h.resetPools q
  | modify e k f => exact h.modify e k f
  | modifyMany e q f => exact h.modifyMany e q f

end Registry

end TickWorld
