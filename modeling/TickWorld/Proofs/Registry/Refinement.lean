import TickWorld.Drift.Component
import TickWorld.Proofs.Registry.World

namespace TickWorld

open ComponentKind (name)

variable {κ : Type} [DecidableEq κ] [ComponentKind κ]

namespace Registry

variable {r : Registry κ} {w : World κ} {t : Pools κ} {e e' : Entity} {k k' : κ} {q : List κ}

theorem Valid.mem_live_world (h : r.Valid) : e ∈ r.world.live ↔ r.isLive e = true := by
  rw [h.isLive_iff]
  exact List.mem_toFinset

theorem Valid.not_mem_live_world (h : r.Valid) : e ∉ r.world.live ↔ r.isLive e = false := by
  rw [h.mem_live_world, Bool.not_eq_true]

theorem value_world_of_live (he : r.isLive e = true) (k : κ) :
    r.world.value k e = r.pools.value? e k := by
  simp [world, get?, he, Pools.value?]

theorem value_world_of_dead (he : r.isLive e = false) (k : κ) : r.world.value k e = none := by
  simp [world, get?, he]

theorem Valid.owns_world (h : r.Valid) (he : r.isLive e = true) (k : κ) :
    r.world.owns e k = r.pools.owns e k := by
  rw [World.owns, value_world_of_live he, h.pools.isSome_value?]

theorem world_congr {r' : Registry κ} (hl : r'.live = r.live) (hp : r'.pools = r.pools) :
    r'.world = r.world := by
  obtain ⟨live, recycled, issued, pools, sizing⟩ := r
  obtain ⟨live', recycled', issued', pools', sizing'⟩ := r'
  cases hl
  cases hp
  rfl

theorem world_withPools (hl : w.live = r.world.live)
    (hr : ∀ k, t.contains k = w.registered k)
    (hv : ∀ e k, r.isLive e = true → t.value? e k = w.value k e)
    (hd : ∀ e k, r.isLive e = false → w.value k e = none) :
    ({ r with pools := t } : Registry κ).world = w := by
  apply World.ext
  · exact hl.symm
  · exact funext hr
  · funext k e
    cases he : r.isLive e with
    | true =>
      rw [value_world_of_live (r := { r with pools := t }) he]
      exact hv e k he
    | false =>
      rw [value_world_of_dead (r := { r with pools := t }) he]
      exact (hd e k he).symm

/-- Pools that differ at one kind for one live entity store a world that differs there. -/
theorem world_set (hl : w.live = r.world.live) (hw : w.value = r.world.value)
    (hr : ∀ k, t.contains k = w.registered k) (he : r.isLive e = true)
    (ho : ∀ e' k', ¬(k' = k ∧ e' = e) → t.value? e' k' = r.pools.value? e' k') :
    ({ r with pools := t } : Registry κ).world = w.set k e (t.value? e k) := by
  refine world_withPools hl hr ?_ ?_
  · intro e' k' he'
    by_cases hs : k' = k ∧ e' = e
    · obtain ⟨rfl, rfl⟩ := hs
      rw [World.value_set_self]
    · rw [World.value_set_of_ne _ hs, ho e' k' hs, hw, value_world_of_live he']
  · intro e' k' he'
    have hne : ¬(k' = k ∧ e' = e) := by
      intro hs
      obtain ⟨-, rfl⟩ := hs
      simp [he] at he'
    rw [World.value_set_of_ne _ hne, hw, value_world_of_dead he']

theorem world_ofSizing {sizing : Sizing} (hr : ofSizing sizing = .ok r) : r.world = .empty := by
  rw [ofSizing_eq_ok hr]
  apply World.ext
  · rfl
  · rfl
  · funext k e
    exact ite_self _

theorem Taken.world_enliven (h : r.Taken e) : (r.enliven e).state.world = r.world.bear e := by
  apply World.ext
  · ext e'
    simp [world, h.entities_enliven, World.bear]
  · rfl
  · funext k e'
    exact h.get?_enliven e' k

theorem hasPool_foldl_retire (r : Registry κ) (es : List Entity) :
    (es.foldl Registry.retire r).hasPool = r.hasPool := by
  induction es generalizing r with
  | nil => rfl
  | cons e es ih => exact ih _

theorem Valid.world_foldl_retire {es : List Entity} (h : r.Valid) (hn : es.Nodup)
    (hl : ∀ e ∈ es, e ∈ r.entities) :
    (es.foldl Registry.retire r).world = r.world.remove es.toFinset := by
  obtain ⟨hv, hm⟩ := h.foldl_retire hn hl
  apply World.ext
  · ext e
    simp [world, hm, World.remove]
  · exact hasPool_foldl_retire r es
  · funext k e
    change (es.foldl Registry.retire r).get? e k =
      if e ∈ es.toFinset then none else r.get? e k
    rw [hv.get?_eq, h.get?_eq, value?_foldl_retire h.pools]
    simp only [hm, List.mem_toFinset]
    by_cases he : e ∈ es <;> simp [he]

theorem Valid.world_retire (h : r.Valid) (he : e ∈ r.entities) :
    (r.retire e).world = r.world.remove {e} := by
  have hn : [e].Nodup := by simp
  have hl : ∀ e' ∈ [e], e' ∈ r.entities := by simpa using he
  simpa using h.world_foldl_retire hn hl

theorem Valid.create_refines (h : r.Valid) (hroom : r.size < Entity.null.index) :
    ∃ e, e ∉ r.world.live ∧ e ≠ .null ∧ r.create.result = .ok e ∧
      r.create.state.world = r.world.bear e := by
  rcases h.create_cases with ⟨e, r₀, ht, hc, hl, hp, -⟩ | ⟨hall, -⟩
  · have hw : r₀.world = r.world := world_congr hl hp
    have hn : e ∉ r₀.world.live := fun he => ht.not_mem (List.mem_toFinset.mp he)
    rw [hc, ← hw]
    exact ⟨e, hn, ht.ne_null, rfl, ht.world_enliven⟩
  · exact absurd hall (Nat.ne_of_lt hroom)

theorem Valid.destroy_refines (h : r.Valid) (e : Entity) :
    (r.destroy e).result = (r.world.destroy e).1 ∧
      (r.destroy e).state.world = (r.world.destroy e).2 := by
  rw [Registry.destroy, World.destroy]
  cases he : r.isLive e with
  | true =>
    rw [if_pos rfl, if_pos (h.mem_live_world.mpr he)]
    exact ⟨rfl, h.world_retire (h.isLive_iff.mp he)⟩
  | false =>
    rw [if_neg Bool.false_ne_true, if_neg (h.not_mem_live_world.mpr he)]
    exact ⟨rfl, rfl⟩

theorem Valid.destroyCounting_refines (h : r.Valid) (n : Nat) (es : List Entity) :
    (r.destroyCounting n es).result = (r.world.destroyMany n es).1 ∧
      (r.destroyCounting n es).state.world = (r.world.destroyMany n es).2 := by
  induction es generalizing r n with
  | nil => exact ⟨rfl, rfl⟩
  | cons e es ih =>
    rw [Registry.destroyCounting, World.destroyMany]
    cases he : r.isLive e with
    | true =>
      have hm := h.isLive_iff.mp he
      rw [if_pos rfl, if_pos (h.mem_live_world.mpr he), ← h.world_retire hm]
      exact ih (h.retire hm) (n + 1)
    | false =>
      rw [if_neg Bool.false_ne_true, if_neg (h.not_mem_live_world.mpr he)]
      exact ⟨rfl, rfl⟩

theorem Valid.toFinset_matching (h : r.Valid) (q : List κ) :
    (r.matching q).toFinset = r.world.owners q := by
  ext e
  rw [List.mem_toFinset, matching, List.mem_filter, World.owners, Finset.mem_filter,
    Pools.ownsAll_iff, h.mem_live_world, h.isLive_iff]
  apply and_congr_right
  intro he
  apply and_congr_right
  intro _
  apply forall₂_congr
  intro k _
  rw [h.owns_world (h.isLive_iff.mpr he)]

theorem Valid.destroyWith_refines (h : r.Valid) (q : List κ) :
    (r.destroyWith q).result = (r.world.owners q).card ∧
      (r.destroyWith q).state.world = r.world.remove (r.world.owners q) := by
  have hn := h.matching_nodup q
  rw [← h.toFinset_matching, List.toFinset_card_of_nodup hn]
  exact ⟨rfl, h.world_foldl_retire hn fun _ => mem_entities_of_mem_matching⟩

theorem Valid.world_reset (h : r.Valid) : r.reset.state.world = r.world.remove r.world.live := by
  have hl : r.reset.state.entities = [] := by
    simp [Registry.reset, entities, SparseSet.clear, SparseSet.toList]
  apply World.ext
  · simp [world, hl, World.remove]
  · rfl
  · funext k e
    change r.reset.state.get? e k = if e ∈ r.world.live then none else r.world.value k e
    rw [h.reset.get?_eq, hl, if_neg List.not_mem_nil]
    split
    · rfl
    · rename_i he
      exact (value_world_of_dead (h.not_mem_live_world.mp he) k).symm

/-- A value that is put into the pool of a kind, new or not, is put into the world. -/
theorem Valid.world_updateOrCreate (h : r.Valid) (he : r.isLive e = true) {value : Value k}
    {op : Pool k → Except Failure Unit × Pool k} {capacity : Nat}
    (hg : (r.pools.ensure k capacity).result = .ok ())
    (hop : ∀ p, p.Valid → (op p).2.Valid)
    (hv : ∀ e', (op (r.pools.target k capacity)).2.get? e' =
      if e' = e then some value else r.pools.value? e' k) :
    ({ r with pools := (r.pools.updateOrCreate k capacity op).state } : Registry κ).world =
      (r.world.register k).set k e (some value) := by
  have hself : (r.pools.updateOrCreate k capacity op).state.value? e k = some value := by
    rw [h.pools.value?_updateOrCreate_self hg hop, hv, if_pos rfl]
  rw [← hself]
  refine world_set rfl rfl ?_ he ?_
  · intro k'
    rw [h.pools.contains_updateOrCreate hg hop]
    by_cases hk : k' = k <;> simp [World.register, world, hasPool, hk]
  · intro e' k' hne
    by_cases hk : k' = k
    · subst k'
      rw [h.pools.value?_updateOrCreate_self hg hop, hv, if_neg fun hs => hne ⟨rfl, hs⟩]
    · rw [h.pools.value?_updateOrCreate_of_ne hg hop hk]

/-- There is a pool for the kind, or one is made, and it has room for a value of the entity. -/
structure Granted (r : Registry κ) (e : Entity) (k : κ) : Prop where
  made : (r.pools.ensure k r.sizing.poolCapacity).result = .ok ()
  room : (r.pools.target k r.sizing.poolCapacity).has e = false →
    ((r.pools.target k r.sizing.poolCapacity).growFor e).1 = .ok ()

/-- What a registry provides is granted. -/
theorem Valid.granted (h : r.Valid) (he : r.isLive e = true)
    (hroom : r.get? e k = none → r.Provides k) : r.Granted e k := by
  have hget : r.get? e k = r.pools.value? e k := value_world_of_live he k
  constructor
  case made =>
    cases hx : r.get? e k with
    | none => exact Pools.ensure_of_room (hroom hx).pool
    | some value =>
      have ho : r.pools.owns e k = true := by
        rw [← h.pools.isSome_value?, ← hget, hx, Option.isSome_some]
      exact Pools.ensure_of_room (.inl (h.pools.contains_of_owns ho))
  case room =>
    intro hp
    rw [h.pools.has_target, ← hget, Option.isSome_eq_false_iff, Option.isNone_iff_eq_none] at hp
    have hvalue := (hroom hp).value
    have hs : (r.pools.target k r.sizing.poolCapacity).size = (r.pool? k).elim 0 Pool.size :=
      r.pools.size_target k _
    rw [Pool.growFor_fst, hs]
    exact if_neg (Nat.not_le_of_lt hvalue)

theorem Valid.assign_refines (h : r.Valid) (e : Entity) (k : κ) (value : Value k)
    (hgranted : r.isLive e = true → r.Granted e k) :
    (r.assign e k value).result = (r.world.assign e k value).1 ∧
      (r.assign e k value).state.world = (r.world.assign e k value).2 := by
  rw [assign_eq, World.assign]
  cases he : r.isLive e with
  | false =>
    rw [if_neg Bool.false_ne_true, if_pos (h.not_mem_live_world.mpr he)]
    exact ⟨rfl, rfl⟩
  | true =>
    have hg := hgranted he
    have hop : ∀ p : Pool k, p.Valid → (p.assign e value).2.Valid := fun p hp => hp.assign e value
    have hhas : (r.pools.target k r.sizing.poolCapacity).has e = r.pools.owns e k := by
      rw [h.pools.has_target, h.pools.isSome_value?]
    rw [if_pos rfl, if_neg (not_not_intro (h.mem_live_world.mpr he)), h.owns_world he, ← hhas]
    simp only [Outcome.mapState, (h.pools.updateOrCreate_of_granted hg.made).1]
    cases hp : (r.pools.target k r.sizing.poolCapacity).has e with
    | true =>
      rw [Pool.assign_of_has hp, if_pos rfl]
      have hc : r.pools.contains k = true := h.pools.contains_of_owns (hhas.symm.trans hp)
      have hsame : (r.pools.updateOrCreate k r.sizing.poolCapacity (·.assign e value)).state =
          r.pools := by
        apply h.pools.updateOrCreate_same hc
        rw [Pool.assign_of_has hp]
      rw [hsame]
      exact ⟨rfl, rfl⟩
    | false =>
      rw [Pool.assign_of_granted hp (hg.room hp), if_neg Bool.false_ne_true]
      constructor
      · rfl
      · apply h.world_updateOrCreate he hg.made hop
        intro e'
        rw [(h.pools.target k _).get?_assign hp (hg.room hp), Pools.get?_target]

theorem Valid.assignOrReplace_refines (h : r.Valid) (e : Entity) (k : κ) (value : Value k)
    (hgranted : r.isLive e = true → r.Granted e k) :
    (r.assignOrReplace e k value).result = (r.world.assignOrReplace e k value).1 ∧
      (r.assignOrReplace e k value).state.world = (r.world.assignOrReplace e k value).2 := by
  rw [assignOrReplace_eq, World.assignOrReplace]
  cases he : r.isLive e with
  | false =>
    rw [if_neg Bool.false_ne_true, if_pos (h.not_mem_live_world.mpr he)]
    exact ⟨rfl, rfl⟩
  | true =>
    have hg := hgranted he
    have ht := h.pools.target k r.sizing.poolCapacity
    obtain ⟨hresult, hvalues⟩ := ht.assignOrReplace_of_granted value hg.room
    rw [if_pos rfl, if_neg (not_not_intro (h.mem_live_world.mpr he))]
    constructor
    · exact ((h.pools.updateOrCreate_of_granted hg.made).1).trans hresult
    · apply h.world_updateOrCreate he hg.made (fun p hp => hp.assignOrReplace e value)
      intro e'
      rw [hvalues, Pools.get?_target]

/-- Writing a value in place is writing it in the world. -/
theorem Valid.world_write (h : r.Valid) (he : r.isLive e = true) (f : Value k → Value k) :
    ({ r with pools := r.pools.modify k (·.modify e f) } : Registry κ).world =
      r.world.set k e ((r.world.value k e).map f) := by
  have hf : ∀ p : Pool k, p.Valid → (p.modify e f).Valid := fun p hp => hp.modify e f
  have hself : (r.pools.modify k (·.modify e f)).value? e k = (r.world.value k e).map f := by
    rw [h.pools.value?_write, if_pos rfl, value_world_of_live he]
  rw [← hself]
  refine world_set rfl rfl (h.pools.contains_modify hf) he ?_
  intro e' k' hne
  by_cases hk : k' = k
  · subst k'
    rw [h.pools.value?_write, if_neg fun hs => hne ⟨rfl, hs⟩]
  · rw [h.pools.value?_modify_of_ne hf hk]

theorem Valid.modify_refines (h : r.Valid) (e : Entity) (k : κ) (f : Value k → Value k) :
    r.get? e k = (r.world.modify e k f).1 ∧
      (r.modify e k f).world = (r.world.modify e k f).2 := by
  refine ⟨rfl, ?_⟩
  rw [Registry.modify, World.modify]
  cases he : r.isLive e with
  | true => exact h.world_write he f
  | false =>
    rw [value_world_of_dead he, Option.map_none, ← value_world_of_dead he k]
    exact (World.set_value _ k e).symm

theorem Valid.replace_refines (h : r.Valid) (e : Entity) (k : κ) (value : Value k) :
    (r.replace e k value).result = (r.world.replace e k value).1 ∧
      (r.replace e k value).state.world = (r.world.replace e k value).2 := by
  rw [replace_eq, World.replace]
  cases he : r.isLive e with
  | false =>
    rw [if_neg Bool.false_ne_true, if_pos (h.not_mem_live_world.mpr he)]
    exact ⟨rfl, rfl⟩
  | true =>
    rw [if_pos rfl, if_neg (not_not_intro (h.mem_live_world.mpr he))]
    have hreg : r.world.registered k = (r.pools.get? k).isSome := h.pools.contains_eq k
    cases hp : r.pools.get? k with
    | none =>
      rw [hp] at hreg
      rw [Pools.update_of_none hp, hreg]
      exact ⟨rfl, rfl⟩
    | some p =>
      rw [hp] at hreg
      have hv : r.world.value k e = p.get? e := by
        rw [value_world_of_live he, Pools.value?, hp]
        rfl
      rw [h.pools.update_of_some hp, hreg, hv, Pool.replace]
      cases hold : p.get? e with
      | none =>
        refine ⟨rfl, ?_⟩
        change ({ r with pools := r.pools.modify k fun _ => p } : Registry κ).world = r.world
        rw [h.pools.modify_self hp]
      | some old =>
        refine ⟨rfl, ?_⟩
        change ({ r with pools := r.pools.modify k fun _ => p.modify e fun _ => value } :
          Registry κ).world = r.world.set k e (some value)
        have hw := h.world_write he fun _ : Value k => value
        rw [hv, hold, Option.map_some] at hw
        have hsame : (r.pools.modify k fun _ => p.modify e fun _ => value) =
            r.pools.modify k (·.modify e fun _ => value) :=
          h.pools.modify_congr hp rfl
        rw [hsame]
        exact hw

theorem Valid.delete_refines (h : r.Valid) (e : Entity) (q : List κ) :
    (r.delete e q).result = (r.world.delete e q).1 ∧
      (r.delete e q).state.world = (r.world.delete e q).2 := by
  rw [Registry.delete, World.delete]
  cases he : r.isLive e with
  | false =>
    rw [if_neg Bool.false_ne_true, if_pos (h.not_mem_live_world.mpr he)]
    exact ⟨rfl, rfl⟩
  | true =>
    rw [if_pos rfl, if_neg (not_not_intro (h.mem_live_world.mpr he))]
    have hm : q.find? (!r.world.owns e ·) = r.pools.missing? e q := by
      simp only [h.owns_world he, Pools.missing?]
    rw [hm]
    cases firstRepeat? [] q with
    | some k => exact ⟨rfl, rfl⟩
    | none =>
      cases r.pools.missing? e q with
      | some k => exact ⟨rfl, rfl⟩
      | none =>
        refine ⟨rfl, world_withPools rfl (h.pools.contains_deleteAll e q) ?_ ?_⟩
        · intro e' k he'
          rw [h.pools.value?_deleteAll, ← value_world_of_live he']
        · intro e' k he'
          simp [value_world_of_dead he']

theorem Valid.world_resetPools (h : r.Valid) (q : List κ) :
    (r.resetPools q).world = r.world.resetPools q := by
  refine world_withPools rfl (h.pools.contains_clearAll q) ?_ ?_
  · intro e k he
    rw [h.pools.value?_clearAll, ← value_world_of_live he]
    rfl
  · intro e k he
    simp [World.resetPools, value_world_of_dead he]

theorem claim_eq_fault? (r : Registry κ) (seen q : List κ) :
    r.pools.claim seen q =
      match r.world.fault? seen q with
      | none => .ok ()
      | some cause => .error cause := by
  induction q generalizing seen with
  | nil => rfl
  | cons k q ih =>
    have hreg : r.world.registered k = r.pools.contains k := rfl
    rw [Pools.claim, World.fault?, hreg, ih]
    cases r.pools.contains k with
    | false => rfl
    | true =>
      by_cases hk : k ∈ seen <;> simp [hk]

theorem fetch_eq_row (he : r.isLive e = true) (q : List κ) :
    r.pools.fetch e q =
      match r.world.row e q with
      | .ok row => .ok row
      | .error k => .error (.missingComponent e (name k)) := by
  induction q with
  | nil => rfl
  | cons k q ih =>
    rw [Pools.fetch, World.row, value_world_of_live he, ← Pools.value?, ih]
    cases r.pools.value? e k with
    | none => rfl
    | some value => cases r.world.row e q <;> rfl

theorem Valid.world_putMany (h : r.Valid) (he : r.isLive e = true) (row : Row Value q)
    (ho : ∀ k ∈ q, r.world.owns e k = true) :
    (r.putMany e row).world = r.world.setRow e row := by
  induction row generalizing r with
  | nil => rfl
  | @cons k q value rest ih =>
    have hv := h.withPools (h.pools.modify fun p hp => hp.modify e fun _ : Value k => value)
    have hw : ({ r with pools := r.pools.modify k (·.modify e fun _ => value) } :
        Registry κ).world = r.world.set k e (some value) := by
      obtain ⟨old, hold⟩ := Option.isSome_iff_exists.mp (ho k (by simp))
      rw [h.world_write he, hold, Option.map_some]
    rw [World.setRow, ← hw]
    apply ih hv he
    intro k' hk'
    rw [World.owns, hw]
    by_cases hk : k' = k
    · subst k'
      rw [World.value_set_self, Option.isSome_some]
    · rw [World.value_set_of_ne _ fun hs => hk hs.1]
      exact ho k' (by simp [hk'])

theorem Valid.modifyMany_refines (h : r.Valid) (e : Entity) (q : List κ)
    (f : Row Value q → Row Value q) :
    (r.modifyMany e q f).result = (r.world.modifyMany e q f).1 ∧
      (r.modifyMany e q f).state.world = (r.world.modifyMany e q f).2 := by
  rw [Registry.modifyMany, Registry.getMany, World.modifyMany]
  cases he : r.isLive e with
  | false =>
    rw [if_neg Bool.false_ne_true, if_pos (h.not_mem_live_world.mpr he)]
    exact ⟨rfl, rfl⟩
  | true =>
    rw [if_pos rfl, if_neg (not_not_intro (h.mem_live_world.mpr he)), claim_eq_fault?]
    cases r.world.fault? [] q with
    | some cause => exact ⟨rfl, rfl⟩
    | none =>
      have hf := h.pools.isSome_fetch (e := e) (q := q)
      rw [fetch_eq_row he] at hf ⊢
      cases hrow : r.world.row e q with
      | error k => exact ⟨rfl, rfl⟩
      | ok row =>
        rw [hrow] at hf
        have ho : ∀ k ∈ q, r.world.owns e k = true := by
          intro k hk
          rw [h.owns_world he]
          exact List.all_eq_true.mp hf.symm k hk
        exact ⟨rfl, h.world_putMany he (f row) ho⟩

theorem Valid.prescribed (h : r.Valid) (c : Command κ) (hroom : r.HasRoomFor c) :
    r.world.Prescribes c (c.perform r).result (c.perform r).state.world := by
  cases c with
  | create => exact h.create_refines hroom
  | destroy e => exact Prod.ext_iff.mpr (h.destroy_refines e)
  | destroyMany es => exact Prod.ext_iff.mpr (h.destroyCounting_refines 0 es)
  | destroyWith q => exact h.destroyWith_refines q
  | reset => exact h.world_reset
  | assign e k value =>
    exact Prod.ext_iff.mpr (h.assign_refines e k value fun he => h.granted he (hroom he))
  | replace e k value => exact Prod.ext_iff.mpr (h.replace_refines e k value)
  | assignOrReplace e k value =>
    exact Prod.ext_iff.mpr (h.assignOrReplace_refines e k value fun he => h.granted he (hroom he))
  | delete e q => exact Prod.ext_iff.mpr (h.delete_refines e q)
  | resetPools q => exact h.world_resetPools q
  | modify e k f => exact Prod.ext_iff.mpr (h.modify_refines e k f)
  | modifyMany e q f => exact Prod.ext_iff.mpr (h.modifyMany_refines e q f)

theorem Valid.runs (h : r.Valid) (cs : List (Command κ)) (hroom : r.HasRoomForAll cs) :
    r.world.Runs (r.transcript cs) (r.after (cs.map .command)).world := by
  induction cs generalizing r with
  | nil => exact .done _
  | cons c cs ih => exact .step (h.prescribed c hroom.1) (ih (h.perform c) hroom.2)

end Registry

/-- Every command in a reachable registry that has room for what it adds answers what the world
prescribes and leads to the world that is prescribed; an empty registry stores the empty world, so
commands lead from there as they may in the world. -/
theorem registry_refines_world :
    (∀ r : Registry κ, r.Reachable → ∀ c : Command κ, r.HasRoomFor c →
      r.world.Prescribes c (c.perform r).result (c.perform r).state.world) ∧
    ∀ (sizing : Sizing) (r : Registry κ), Registry.ofSizing sizing = .ok r →
      r.world = .empty ∧ ∀ cs : List (Command κ), r.HasRoomForAll cs →
        World.empty.Runs (r.transcript cs) (r.after (cs.map .command)).world := by
  refine ⟨fun r h c hroom => h.valid.prescribed c hroom, ?_⟩
  intro sizing r hr
  have hw := Registry.world_ofSizing hr
  refine ⟨hw, ?_⟩
  intro cs hroom
  rw [← hw]
  exact (Registry.valid_ofSizing hr).runs cs hroom

/-- One of two entities gets health. Then its health is overwritten, or it gets a lifetime, of which
kind there is no pool yet, or the other entity is destroyed. -/
theorem registry_refines_world_health :
    ∃ (r r' : Registry (Drift.Kind Empty)) (cs : List (Command (Drift.Kind Empty))),
      cs = [.create, .create, .assign ⟨0⟩ .health (.full 9)] ∧ r' = r.after (cs.map .command) ∧
      World.empty.Runs (r.transcript cs) r'.world ∧
      r'.world.owns ⟨0⟩ .health = true ∧ r'.world.registered .lifetime = false ∧
      r'.world.Prescribes (.assignOrReplace ⟨0⟩ .health (.full 5)) (.ok ())
        (r'.assignOrReplace ⟨0⟩ .health (.full 5)).state.world ∧
      r'.world.Prescribes (.assignOrReplace ⟨0⟩ .lifetime (Drift.Lifetime.mk 3)) (.ok ())
        (r'.assignOrReplace ⟨0⟩ .lifetime (Drift.Lifetime.mk 3)).state.world ∧
      r'.world.Prescribes (.destroy ⟨1⟩) (.ok ()) (r'.destroy ⟨1⟩).state.world := by
  let r : Registry (Drift.Kind Empty) := { sizing := ⟨0, 0⟩ }
  let cs : List (Command (Drift.Kind Empty)) :=
    [.create, .create, .assign ⟨0⟩ .health (.full 9)]
  let r' := r.after (cs.map .command)
  have hr : Registry.ofSizing ⟨0, 0⟩ = .ok r := rfl
  have hreach : r'.Reachable := (Registry.Reachable.ofSizing hr).after _
  have hfirst : r.size < Entity.null.index := by decide
  have hsecond : r.create.state.size < Entity.null.index := by decide +kernel
  have hthird : r.create.state.create.state.Provides .health :=
    ⟨.inr (by decide +kernel), by decide +kernel⟩
  have hroom : r.HasRoomForAll cs := by
    simp only [cs, Registry.HasRoomForAll, Registry.HasRoomFor, Command.perform]
    exact ⟨hfirst, hsecond, fun _ _ => hthird, trivial⟩
  have hhealth : (r'.get? ⟨0⟩ .health).isSome = true := by decide +kernel
  have hreplaced : r'.HasRoomFor (.assignOrReplace ⟨0⟩ .health (.full 5)) := by
    intro _ hnone
    rw [hnone] at hhealth
    cases hhealth
  have hlifetime : r'.Provides .lifetime := ⟨.inr (by decide +kernel), by decide +kernel⟩
  have hassigned : r'.HasRoomFor (.assignOrReplace ⟨0⟩ .lifetime (Drift.Lifetime.mk 3)) :=
    fun _ _ => hlifetime
  have hhealth' := registry_refines_world.1 r' hreach _ hreplaced
  have hlifetime' := registry_refines_world.1 r' hreach _ hassigned
  have hdestroyed := registry_refines_world.1 r' hreach (.destroy ⟨1⟩) trivial
  have hok : (r'.assignOrReplace ⟨0⟩ .health (.full 5)).result = .ok () := by decide +kernel
  have hok' : (r'.assignOrReplace ⟨0⟩ .lifetime (Drift.Lifetime.mk 3)).result = .ok () := by
    decide +kernel
  have hok'' : (r'.destroy ⟨1⟩).result = .ok () := by decide +kernel
  simp only [Command.perform, hok, hok', hok''] at hhealth' hlifetime' hdestroyed
  exact ⟨r, r', cs, rfl, rfl, (registry_refines_world.2 _ r hr).2 cs hroom, by decide +kernel,
    by decide +kernel, hhealth', hlifetime', hdestroyed⟩

end TickWorld
