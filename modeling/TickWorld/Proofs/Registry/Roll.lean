import TickWorld.Proofs.Registry.Refinement
import TickWorld.Proofs.Registry.Selection
import TickWorld.Proofs.Storage.Listing

namespace TickWorld

open ComponentKind (name valueLimit)

abbrev Profile (κ : Type) [ComponentKind κ] : Type := (k : κ) → Option (Value k)

/-- There are fewer entity numbers than slots that an allocator gives. -/
theorem Pool.Valid.growFor_of_slotLimit {κ : Type} [ComponentKind κ] {k : κ} {p : Pool k}
    (h : p.Valid) (hl : slotLimit ≤ valueLimit k) (e : Entity) : (p.growFor e).1 = .ok () := by
  have hs : p.size ≤ 0x100000000 := by
    rw [Pool.size, h.aligned]
    exact h.owners.size_le_of_index_lt fun e _ => e.index_lt
  have hlimit : slotLimit = 0x1000000000000000 := rfl
  rw [Pool.growFor_fst, if_neg (by omega)]

namespace Registry

variable {κ : Type} [DecidableEq κ] [ComponentKind κ]

/-- The live entities in registry order, each with its components. -/
def roll (r : Registry κ) : List (Entity × Profile κ) := r.entities.map fun e => (e, r.get? e)

/-- Memory for components of a kind is not refused: the kind has a pool, or can get one. -/
def Stocked (r : Registry κ) (k : κ) : Prop :=
  r.hasPool k = true ∨ r.sizing.poolCapacity < slotLimit

instance (r : Registry κ) (k : κ) : Decidable (r.Stocked k) := inferInstanceAs (Decidable (_ ∨ _))

variable {r r' : Registry κ} {e : Entity} {k : κ} {q : List κ}

theorem map_fst_roll (r : Registry κ) : r.roll.map Prod.fst = r.entities := by
  rw [roll, List.map_map]
  exact List.map_id _

theorem mem_roll {x : Entity × Profile κ} :
    x ∈ r.roll ↔ x.1 ∈ r.entities ∧ r.get? x.1 = x.2 := by
  obtain ⟨e, p⟩ := x
  rw [roll, List.mem_map]
  constructor
  · intro hx
    obtain ⟨e', he', hx⟩ := hx
    cases hx
    exact ⟨he', rfl⟩
  · intro hx
    exact ⟨e, hx.1, Prod.ext rfl hx.2⟩

theorem Valid.nodup_roll (h : r.Valid) : r.roll.Nodup := by
  apply List.Nodup.of_map Prod.fst
  rw [map_fst_roll]
  exact h.live.nodup

theorem length_roll (r : Registry κ) : r.roll.length = r.size := by
  rw [roll, List.length_map, entities, SparseSet.toList, Array.length_toList]
  rfl

theorem Valid.get?_of_mem (h : r.Valid) (he : e ∈ r.entities) (k : κ) :
    r.get? e k = r.pools.value? e k := by
  rw [h.get?_eq, if_pos he]

theorem forall₂_roll {β : Type} {R : β → Profile κ → Prop} {bs : List β}
    {xs : List (Entity × Profile κ)} (hx : ∀ x ∈ xs, x ∈ r.roll)
    (h : List.Forall₂ R bs (xs.map Prod.snd)) :
    List.Forall₂ (fun b e => e ∈ r.entities ∧ R b (r.get? e)) bs (xs.map Prod.fst) := by
  induction xs generalizing bs with
  | nil =>
    cases h
    exact .nil
  | cons x xs ih =>
    obtain ⟨he, hp⟩ := mem_roll.mp (hx x List.mem_cons_self)
    cases h with
    | cons hb h =>
      rw [← hp] at hb
      exact .cons ⟨he, hb⟩ (ih (fun x hm => hx x (List.mem_cons_of_mem _ hm)) h)

theorem roll_map {g : Profile κ → Profile κ} (he : r'.entities = r.entities)
    (hv : ∀ e ∈ r.entities, r'.get? e = g (r.get? e)) :
    r'.roll = r.roll.map (Prod.map id g) := by
  rw [roll, roll, he, List.map_map]
  apply List.map_congr_left
  intro e hm
  exact Prod.ext rfl (hv e hm)

/-- Distinct live entities at the head of a list are destroyed before the rest is looked at. -/
theorem Valid.destroyCounting_append {es : List Entity} (h : r.Valid) (hn : es.Nodup)
    (hl : ∀ e ∈ es, e ∈ r.entities) (n : Nat) (rest : List Entity) :
    r.destroyCounting n (es ++ rest) =
      (es.foldl Registry.retire r).destroyCounting (n + es.length) rest := by
  induction es generalizing r n with
  | nil => rfl
  | cons e es ih =>
    have he := hl e List.mem_cons_self
    rw [List.cons_append, Registry.destroyCounting, if_pos (h.isLive_iff.mpr he),
      ih (h.retire he) (List.nodup_cons.mp hn).2 (h.live_retire hn hl), List.length_cons,
      List.foldl_cons, Nat.add_assoc, Nat.add_comm 1]

theorem Valid.destroyMany_eq {es : List Entity} (h : r.Valid) (hn : es.Nodup)
    (hl : ∀ e ∈ es, e ∈ r.entities) :
    r.destroyMany es = ⟨.ok es.length, es.foldl Registry.retire r, #[]⟩ := by
  have hc := h.destroyCounting_append hn hl 0 []
  rw [List.append_nil, Nat.zero_add] at hc
  exact hc

theorem Valid.get?_foldl_retire {es : List Entity} (h : r.Valid) (hn : es.Nodup)
    (hl : ∀ e ∈ es, e ∈ r.entities) (he : e ∉ es) :
    (es.foldl Registry.retire r).get? e = r.get? e := by
  obtain ⟨hv, hm⟩ := h.foldl_retire hn hl
  funext k
  rw [hv.get?_eq, h.get?_eq, value?_foldl_retire h.pools, if_neg he]
  simp only [hm, he, not_false_eq_true, and_true]

omit [DecidableEq κ] in
theorem sizing_foldl_retire (r : Registry κ) (es : List Entity) :
    (es.foldl Registry.retire r).sizing = r.sizing := by
  rw [foldl_retire_eq]

theorem Valid.roll_foldl_retire {es : List Entity} (h : r.Valid) (hn : es.Nodup)
    (hl : ∀ e ∈ es, e ∈ r.entities) :
    (es.foldl Registry.retire r).roll.Perm (r.roll.filter (·.1 ∉ es)) := by
  obtain ⟨hv, hm⟩ := h.foldl_retire hn hl
  apply (List.perm_ext_iff_of_nodup hv.nodup_roll (h.nodup_roll.filter _)).mpr
  intro x
  rw [List.mem_filter, mem_roll, mem_roll, hm, decide_eq_true_eq]
  constructor
  · intro hx
    rw [h.get?_foldl_retire hn hl hx.1.2] at hx
    exact ⟨⟨hx.1.1, hx.2⟩, hx.1.2⟩
  · intro hx
    rw [h.get?_foldl_retire hn hl hx.2]
    exact ⟨⟨hx.1.1, hx.2⟩, hx.1.2⟩

omit [DecidableEq κ] in
theorem sizing_create (r : Registry κ) : r.create.state.sizing = r.sizing := by
  rw [create]
  split
  · rfl
  · split <;> rfl

theorem Valid.create_of_lt (h : r.Valid) (hs : r.size < Entity.null.index) :
    ∃ e, r.create.result = .ok e := by
  rcases h.create_cases with ⟨e, r₀, -, hc, -⟩ | ⟨hall, -⟩
  · rw [hc]
    exact ⟨e, rfl⟩
  · exact absurd hall (Nat.ne_of_lt hs)

theorem Valid.create_of_ok (h : r.Valid) (hok : r.create.result = .ok e) :
    e ∉ r.entities ∧ r.create.state.entities = r.entities ++ [e] ∧
      r.create.state.world = r.world.bear e := by
  rcases h.create_cases with ⟨e', r₀, ht, hc, hl, hp, -⟩ | ⟨-, hc⟩
  · have he : r₀.entities = r.entities := congrArg SparseSet.toList hl
    rw [hc] at hok ⊢
    cases hok
    rw [← he, ← world_congr hl hp]
    exact ⟨ht.not_mem, ht.entities_enliven, ht.world_enliven⟩
  · rw [hc] at hok
    cases hok

theorem Valid.create_of_error (h : r.Valid) {cause : Failure}
    (hr : r.create.result = .error cause) :
    r.create = ⟨.error .entitiesExhausted, r, #[]⟩ := by
  rcases h.create_cases with ⟨e, r₀, -, hc, -⟩ | ⟨-, hc⟩
  · rw [hc] at hr
    cases hr
  · exact hc

theorem Valid.get?_create (h : r.Valid) (hok : r.create.result = .ok e) (e' : Entity) :
    r.create.state.get? e' = if e' = e then fun _ => none else r.get? e' := by
  obtain ⟨-, -, hw⟩ := h.create_of_ok hok
  funext k
  have hget : r.create.state.get? e' k = (r.world.bear e).value k e' := by
    rw [← hw]
    rfl
  rw [hget]
  by_cases he : e' = e
  · rw [if_pos he]
    exact if_pos he
  · rw [if_neg he]
    exact if_neg he

theorem Valid.hasPool_create (h : r.Valid) : r.create.state.hasPool = r.hasPool := by
  cases hc : r.create.result with
  | ok e => exact congrArg World.registered (h.create_of_ok hc).2.2
  | error cause => rw [h.create_of_error hc]

theorem Valid.stocked_create (h : r.Valid) (k : κ) : r.create.state.Stocked k ↔ r.Stocked k := by
  rw [Stocked, Stocked, h.hasPool_create, r.sizing_create]

theorem sizing_assign (r : Registry κ) (e : Entity) (k : κ) (value : Value k) :
    (r.assign e k value).state.sizing = r.sizing := by
  rw [assign_eq]
  split <;> rfl

theorem Stocked.ensure (hs : r.Stocked k) (hl : slotLimit ≤ valueLimit k) :
    (r.pools.ensure k r.sizing.poolCapacity).result = .ok () :=
  Pools.ensure_of_room (hs.imp_right fun hc => ⟨hc, Nat.lt_of_lt_of_le hc hl⟩)

/-- A live entity that has no component of a stocked kind can be given one. -/
theorem Valid.assign_of_stocked (h : r.Valid) (he : e ∈ r.entities) (hn : r.get? e k = none)
    (hs : r.Stocked k) (hl : slotLimit ≤ valueLimit k) (value : Value k) :
    (r.assign e k value).result = .ok () ∧
      (r.assign e k value).state.world = (r.world.register k).set k e (some value) := by
  have hgranted : r.Granted e k :=
    ⟨hs.ensure hl, fun _ => (h.pools.target k _).growFor_of_slotLimit hl e⟩
  obtain ⟨hok, hw⟩ := h.assign_refines e k value fun _ => hgranted
  have ho : r.world.owns e k = false := by
    simp [World.owns, world, hn]
  have hm : e ∈ r.world.live := List.mem_toFinset.mpr he
  rw [World.assign, if_neg (not_not_intro hm), ho] at hok hw
  exact ⟨hok, hw⟩

theorem Valid.assign_of_not_stocked (h : r.Valid) (he : e ∈ r.entities) (hs : ¬r.Stocked k)
    (value : Value k) :
    r.assign e k value =
      ⟨.error (.allocationFailed (name k) r.sizing.poolCapacity), r, #[]⟩ := by
  rw [Stocked, not_or, Bool.not_eq_true, hasPool, Nat.not_lt] at hs
  have hgrow : ¬(Pool.empty : Pool k).owners.canGrow r.sizing.poolCapacity = true := by
    have hpos : 0 < slotLimit := by decide
    have hc : (Pool.empty : Pool k).owners.capacity = 0 := rfl
    rw [SparseSet.canGrow_iff, hc]
    omega
  have hmade : r.pools.ensure k r.sizing.poolCapacity =
      ⟨.error (.allocationFailed (name k) r.sizing.poolCapacity), r.pools, #[]⟩ := by
    rcases r.pools.ensure_cases k r.sizing.poolCapacity with
      ⟨hc, -⟩ | ⟨-, cause, hr, hm⟩ | ⟨-, hr, -⟩
    · rw [hs.1] at hc
      cases hc
    · rw [hm, Pool.reserve_eq_error hr]
    · exact absurd (Pool.reserve_of_ok hr).1 hgrow
  rw [assign_eq, if_pos (h.isLive_iff.mpr he), Pools.updateOrCreate, hmade]
  rfl

theorem Stocked.mono {k : κ} (hs : r.Stocked k) (hz : r'.sizing = r.sizing)
    (hp : r.hasPool k = true → r'.hasPool k = true) : r'.Stocked k := by
  rw [Stocked, hz]
  exact hs.imp_left hp

section

variable {σ : Type} {f : σ → Entity → Row Value q → σ × Row Value q}

theorem entities_forEach (r : Registry κ) (s : σ) :
    (r.forEach q f s).state.entities = r.entities := by
  rw [Registry.forEach]
  split <;> rfl

theorem sizing_forEach (r : Registry κ) (s : σ) : (r.forEach q f s).state.sizing = r.sizing := by
  rw [Registry.forEach]
  split <;> rfl

theorem Valid.valid_forEach (h : r.Valid) (s : σ) : (r.forEach q f s).state.Valid :=
  h.run (.forEach q f s)

theorem Valid.hasPool_forEach (h : r.Valid) (s : σ) (k : κ) :
    (r.forEach q f s).state.hasPool k = r.hasPool k := by
  cases hc : r.pools.claim [] q with
  | error cause =>
    simp only [Registry.forEach, hc]
  | ok =>
    obtain ⟨-, t, -, ha, hs⟩ := h.forEach f s hc
    rw [hs]
    exact ha.contains k

theorem Valid.claim_of_fetch (h : r.Valid) (hq : q.Nodup) {row : Row Value q}
    (hr : r.pools.fetch e q = .ok row) : r.pools.claim [] q = .ok () := by
  have hs := h.pools.isSome_fetch (e := e) (q := q)
  rw [hr] at hs
  rw [claimable_iff]
  exact ⟨hq, fun k hk => h.pools.contains_of_owns (List.all_eq_true.mp hs.symm k hk)⟩

theorem Valid.get?_forEach_of_same (h : r.Valid) (s : σ)
    (hk : k ∉ q ∨ ∀ row, r.pools.fetch e q ≠ .ok row) :
    (r.forEach q f s).state.get? e k = r.get? e k := by
  rw [(h.valid_forEach s).get?_eq, h.get?_eq, r.entities_forEach]
  cases hc : r.pools.claim [] q with
  | error cause => simp only [Registry.forEach, hc]
  | ok =>
    rw [h.forEach_eq f s hc]
    exact congrArg (ite _ · none) (h.pools.value?_walk s (.inr hk))

theorem Valid.value?_forEach_of_dead (h : r.Valid) (s : σ) (he : e ∉ r.entities) (k : κ) :
    (r.forEach q f s).state.pools.value? e k = r.pools.value? e k := by
  cases hc : r.pools.claim [] q with
  | error cause => simp only [Registry.forEach, hc]
  | ok =>
    rw [h.forEach_eq f s hc]
    exact h.pools.value?_walk s (.inl he)

theorem Valid.fetch_forEach {g : Entity → Row Value q → Row Value q}
    (hg : ∀ s e row, (f s e row).2 = g e row) (h : r.Valid) (hq : q.Nodup) (s : σ)
    (he : e ∈ r.entities) {row : Row Value q} (hr : r.pools.fetch e q = .ok row) :
    (r.forEach q f s).state.pools.fetch e q = .ok (g e row) := by
  have hw : (e, g e row) ∈ (walk f s (r.rows q)).2 := by
    have hm : (e, row) ∈ r.rows q := Pools.mem_rows.mpr ⟨he, hr⟩
    rw [walk_snd_of_same hg]
    exact List.mem_map.mpr ⟨_, hm, rfl⟩
  rw [h.forEach_eq f s (h.claim_of_fetch hq hr)]
  exact h.pools.fetch_walk hq h.live.nodup s _ hw

theorem Valid.result_forEach (h : r.Valid) (hq : q.Nodup) (s : σ) :
    (r.forEach q f s).result =
      ((r.rows q).length, (r.rows q).foldl (fun s x => (f s x.1 x.2).1) s) := by
  cases hc : r.pools.claim [] q with
  | ok => exact (h.forEach f s hc).1
  | error cause =>
    have hn : r.rows q = [] := by
      rw [List.eq_nil_iff_forall_not_mem]
      intro x hx
      rw [h.claim_of_fetch hq (Pools.mem_rows.mp hx).2] at hc
      cases hc
    rw [hn, Registry.forEach, hc]
    rfl

end

end Registry

end TickWorld
