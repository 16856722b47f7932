import TickWorld.Proofs.Registry.Room

namespace TickWorld

open ComponentKind (name valueLimit)

variable {κ : Type} [DecidableEq κ] [ComponentKind κ]

/-- What an action does about the room that is reserved for entities. -/
def Action.reserved : Action κ → Registry κ → Growth
  | reserve n, r => .ofAnswer n (r.reserve n)
  | _, _ => .none

def Action.growth (k : κ) : Action κ → Registry κ → Growth
  | command (.assign e k' x), r =>
    if k = k' then .ofAnswer (e.index + 1) (r.assign e k' x).result else .none
  | command (.assignOrReplace e k' x), r =>
    if k = k' then .ofAnswer (e.index + 1) (r.assignOrReplace e k' x).result else .none
  | reservePool k' n, r => if k = k' then .ofAnswer n (r.reservePool k' n).result else .none
  | writePool k' w, r => if k = k' then ((r.pool? k').map w.growth).getD .none else .none
  | _, _ => .none

/-- The action can ask for room, for an entity or in a pool. -/
def Action.seeksRoom : Action κ → Bool
  | command .create | command (.assign ..) | command (.assignOrReplace ..) => true
  | reserve _ | reservePool .. => true
  | writePool _ (.assign ..) | writePool _ (.assignOrReplace ..) => true
  | writePool _ (.reserve _) | writePool _ (.exchange ..) => true
  | _ => false

/-- The action asks for room and for nothing else. -/
def Action.Reserves : Action κ → Prop
  | reserve _ | reservePool .. | writePool _ (.reserve _) => True
  | _ => False

def Action.Refused (r : Registry κ) : Action κ → Prop
  | reserve n => ∃ fault, r.reserve n = .error fault
  | writePool k w => ∃ p, r.pool? k = some p ∧ w.Refused p
  | a => ∃ cause, a.refusal? r = some cause

variable {r r' : Registry κ} {a : Action κ} {e : Entity} {k : κ}

theorem Action.growth_of_frugal (ha : a.seeksRoom = false) (k : κ) (r : Registry κ) :
    a.growth k r = .none := by
  cases a with
  | command c =>
    cases c with
    | assign e k' x => cases ha
    | assignOrReplace e k' x => cases ha
    | _ => rfl
  | reservePool k' n => cases ha
  | writePool k' w =>
    have hw (p : Pool k') : w.growth p = .none := by
      cases w with
      | assign e x => cases ha
      | assignOrReplace e x => cases ha
      | reserve n => cases ha
      | exchange p hp => cases ha
      | _ => rfl
    simp only [Action.growth]
    split
    · cases r.pool? k' with
      | none => rfl
      | some p => exact hw p
    · rfl
  | _ => rfl

theorem Action.growth_of_refused (ha : a.Refused r) (k : κ) : a.growth k r = .none := by
  have hrefused {n : Nat} {k' : κ} {answer : Except Failure Unit}
      (hx : ∃ cause, TickWorld.refusal? answer = some cause) :
      (if k = k' then Growth.ofAnswer n answer else .none) = .none := by
    obtain ⟨cause, hx⟩ := hx
    rw [Growth.ofAnswer_error (refusal?_eq_some_iff.mp hx), ite_self]
  cases a with
  | command c =>
    cases c with
    | assign e k' x => exact hrefused ha
    | assignOrReplace e k' x => exact hrefused ha
    | _ => rfl
  | reservePool k' n => exact hrefused ha
  | writePool k' w =>
    obtain ⟨p, hp, hw⟩ := ha
    simp only [Action.growth, hp, Option.map_some, Option.getD_some,
      Pool.Write.growth_of_refused hw, ite_self]
  | _ => rfl

namespace Registry

/-- The rooms that were granted on a run, the last first; those before it are given. -/
def rooms (growth : Action κ → Registry κ → Growth) (r : Registry κ) (ns : List Nat) :
    List (Action κ) → List Nat
  | [] => ns
  | a :: as => (a.run r).rooms growth ((growth a r).rooms ns) as

/-- The registry has the room that it had, and so has every pool that was there. -/
structure KeepsRoom (r r' : Registry κ) : Prop where
  capacity : r'.capacity = r.capacity
  pools : ∀ k n, r.poolCapacity? k = some n → r'.poolCapacity? k = some n

/-- The same entities are live and waiting, in the same order, and the pools hold the same pairs in
the same order. A pool that is new is empty. -/
structure SameContents (r r' : Registry κ) : Prop where
  entities : r'.entities = r.entities
  recycled : r'.recycled.toList = r.recycled.toList
  issued : r'.issued = r.issued
  isLive : ∀ e, r'.isLive e = r.isLive e
  pairs : ∀ k, r'.pools.pairs k = r.pools.pairs k
  get? : ∀ e k, r'.get? e k = r.get? e k
  hasPool : ∀ k, r.hasPool k = true → r'.hasPool k = true

structure SameBounds (r r' : Registry κ) : Prop where
  capacity : r'.capacity = r.capacity
  issued : r'.issued = r.issued
  sizing : r'.sizing = r.sizing

omit [DecidableEq κ] in
theorem sameBounds_pools (r : Registry κ) (t : Pools κ) : r.SameBounds { r with pools := t } :=
  ⟨rfl, rfl, rfl⟩

omit [DecidableEq κ] in
theorem SameBounds.refl (r : Registry κ) : r.SameBounds r := r.sameBounds_pools r.pools

omit [DecidableEq κ] in
theorem sameBounds_foldl_retire (r : Registry κ) (es : List Entity) :
    r.SameBounds (es.foldl retire r) := by
  induction es generalizing r with
  | nil => exact .refl r
  | cons e es ih =>
    obtain ⟨hc, hi, hz⟩ := ih (r.retire e)
    exact ⟨hc.trans (r.live.capacity_erase e), hi, hz⟩

theorem Valid.bounds_cases (h : r.Valid) (a : Action κ) :
    a = .command .create ∨ (∃ n, a = .reserve n) ∨
      (a.reserved r = .none ∧ r.SameBounds (a.run r)) := by
  cases hp : a.aboutComponents with
  | true =>
    obtain ⟨t, ht⟩ := exists_pools_run hp r
    have hnone : a.reserved r = .none := by
      cases a with
      | reserve n => cases hp
      | _ => rfl
    rw [ht]
    exact .inr (.inr ⟨hnone, r.sameBounds_pools t⟩)
  | false =>
    cases a with
    | reserve n => exact .inr (.inl ⟨n, rfl⟩)
    | command c =>
      cases c with
      | create => exact .inl rfl
      | destroy e =>
        refine .inr (.inr ⟨rfl, ?_⟩)
        simp only [Action.run, Command.perform, Registry.destroy]
        split
        · exact r.sameBounds_foldl_retire [e]
        · exact .refl r
      | destroyMany es =>
        refine .inr (.inr ⟨rfl, ?_⟩)
        obtain ⟨rest, -, -, hd⟩ := h.destroyCounting_leading 0 es
        simp only [Action.run, Command.perform, destroyMany, hd]
        exact r.sameBounds_foldl_retire _
      | destroyWith q => exact .inr (.inr ⟨rfl, r.sameBounds_foldl_retire _⟩)
      | reset => exact .inr (.inr ⟨rfl, ⟨rfl, rfl, rfl⟩⟩)
      | _ => cases hp
    | _ => cases hp

theorem Taken.capacity_enliven (h : r.Taken e) :
    (r.enliven e).state.capacity = max r.capacity (e.index + 1) := by
  have hn : r.live.has e = false := h.live.has_eq_false_iff.mpr h.not_mem
  have hl : (r.enliven e).state.live = r.live.append e := by
    simp only [Registry.enliven, SparseSet.insert, hn, Bool.false_eq_true, if_false]
  rw [capacity, hl]
  exact congrArg Listing.capacity (r.live.listing_append e)

theorem Valid.capacity_create (h : r.Valid) (hi : r.issued ≤ r.capacity) :
    r.create.state.capacity = max r.capacity r.create.state.issued := by
  cases hw : r.recycled.toList with
  | nil =>
    rw [h.create_of_none hw]
    split
    · rename_i hlt
      have hx : (Entity.ofNat r.issued).index = r.issued := by
        apply Entity.index_ofNat
        rw [Entity.index_null] at hlt
        omega
      rw [(h.takeFresh hlt).capacity_enliven, hx]
      rfl
    · exact (Nat.max_eq_left hi).symm
  | cons e es =>
    have hsame := (h.create_of_recycled hw).2.2
    rcases h.create_cases with ⟨e', r₀, ht, hc, hl, -⟩ | ⟨-, hc⟩
    · have hlt := ht.index_lt
      have hcap : r₀.capacity = r.capacity := congrArg SparseSet.capacity hl
      rw [hc] at hsame ⊢
      have hissued : r₀.issued = r.issued := hsame
      rw [ht.capacity_enliven, hcap, hsame]
      omega
    · rw [hc]
      exact (Nat.max_eq_left hi).symm

omit [DecidableEq κ] in
theorem exists_growing_enliven (r : Registry κ) (e : Entity) :
    (∃ e' n, .growingEntities e' n ∈ (r.enliven e).events) ↔ r.capacity ≤ e.index := by
  simp only [enliven, Array.mem_append]
  rw [capacity]
  constructor
  · rintro ⟨e', n, hm | hm⟩
    · split at hm
      · rename_i hle
        exact hle
      · simp at hm
    · split at hm <;> simp at hm
  · intro hle
    exact ⟨e, r.live.capacity, .inl (by simp [hle])⟩

theorem Valid.exists_growing_create (h : r.Valid) :
    (∃ e n, .growingEntities e n ∈ r.create.events) ↔ r.capacity < r.create.state.capacity := by
  rcases h.create_cases with ⟨e, r₀, ht, hc, hl, -⟩ | ⟨-, hc⟩
  · have hcap : r₀.capacity = r.capacity := congrArg SparseSet.capacity hl
    rw [hc, exists_growing_enliven, ht.capacity_enliven, hcap]
    omega
  · rw [hc]
    simp

theorem Valid.sizing_run (h : r.Valid) (a : Action κ) : (a.run r).sizing = r.sizing := by
  rcases h.bounds_cases a with rfl | ⟨n, rfl⟩ | ⟨-, hs⟩
  · exact r.sizing_create
  · simp only [Action.run]
    split
    · rename_i hr
      rw [reserve_eq_ok hr]
    · rfl
  · exact hs.sizing

/-- An action raises the capacity to the room that it reserves, or to the numbers that are issued
after it. -/
theorem Valid.capacity_run (h : r.Valid) (hi : r.issued ≤ r.capacity) (a : Action κ) :
    (a.run r).capacity = max (a.run r).issued ((a.reserved r).grow r.capacity) := by
  rcases h.bounds_cases a with rfl | ⟨n, rfl⟩ | ⟨hnone, hs⟩
  · exact (h.capacity_create hi).trans (Nat.max_comm ..)
  · simp only [Action.run, Action.reserved]
    cases hr : r.reserve n with
    | error fault => exact (Nat.max_eq_right hi).symm
    | ok r' =>
      have hcap : (r.live.grow n).capacity = max n r.capacity :=
        (Pool.capacity_grow r.live n).trans (Nat.max_comm ..)
      have hle : r.issued ≤ max n r.capacity := hi.trans (Nat.le_max_right ..)
      cases reserve_eq_ok hr
      exact hcap.trans (Nat.max_eq_right hle).symm
  · rw [hs.capacity, hs.issued, hnone]
    exact (Nat.max_eq_right hi).symm

theorem Valid.isGreatest_capacity_after (h : r.Valid) {ns : List Nat} {m : Nat}
    (hm : IsGreatest {n | n ∈ ns} m) (hr : r.capacity = max r.issued m) (as : List (Action κ)) :
    IsGreatest {n | n = (r.after as).issued ∨ n ∈ r.rooms Action.reserved ns as}
      (r.after as).capacity := by
  induction as generalizing r ns m with
  | nil =>
    change IsGreatest {n | n = r.issued ∨ n ∈ ns} r.capacity
    rw [hr]
    exact hm.insert r.issued
  | cons a as ih =>
    have hi : r.issued ≤ r.capacity := hr ▸ Nat.le_max_left ..
    apply ih (h.run a) ((a.reserved r).isGreatest_rooms hm)
    -- Numbers that were issued before are issued still.
    have hle := h.issued_le_run a
    rw [h.capacity_run hi a, hr]
    cases a.reserved r with
    | none => simp only [Growth.grow]; omega
    | granted n => simp only [Growth.grow]; omega
    | exchanged n => rfl

theorem Valid.grown_onLive (h : r.Valid) {n : Nat} {op : Pool k → Except Failure Unit × Pool k}
    {o : Outcome (Registry κ) (Except Failure Unit)}
    (ho : o =
      if r.isLive e then
        (r.pools.updateOrCreate k r.sizing.poolCapacity op).mapState
          fun t => { r with pools := t }
      else ⟨.error (.deadEntity e), r, #[]⟩)
    (hop : ∀ p, p.Valid → (op p).2.Valid)
    (hc : ∀ p, p.Valid → (op p).2.capacity = (Growth.ofAnswer n (op p).1).grow p.capacity) :
    r.pools.Grown r.sizing.poolCapacity
      (fun k' => if k' = k then .ofAnswer n o.result else .none) o.state.pools := by
  subst o
  split
  · exact h.pools.grown_updateOrCreate hop hc
  · simp only [Growth.ofAnswer, ite_self]
    exact Pools.grown_of_same rfl

theorem Valid.grown_perform (h : r.Valid) (hl : ∀ k : κ, slotLimit ≤ valueLimit k)
    (c : Command κ) :
    r.pools.Grown r.sizing.poolCapacity (fun k => (Action.command c).growth k r)
      (c.perform r).state.pools := by
  cases c with
  | create =>
    apply Pools.grown_of_same
    rcases h.create_cases with ⟨e, r₀, ht, hc, -, hp, -⟩ | ⟨-, hc⟩
    · simp only [Command.perform, hc, enliven, hp]
      exact h.pools.capacity?_eraseEntity e
    · simp only [Command.perform, hc]
  | destroy e =>
    apply Pools.grown_of_same
    simp only [Command.perform, Registry.destroy]
    split
    · exact h.pools.capacity?_eraseEntity e
    · rfl
  | destroyMany es =>
    apply Pools.grown_of_same
    obtain ⟨rest, -, -, hd⟩ := h.destroyCounting_leading 0 es
    simp only [Command.perform, destroyMany, hd, foldl_retire_eq]
    exact h.pools.capacity?_foldl_eraseEntity _
  | destroyWith q =>
    apply Pools.grown_of_same
    simp only [Command.perform, Registry.destroyWith, foldl_retire_eq]
    exact h.pools.capacity?_foldl_eraseEntity _
  | reset => exact Pools.grown_of_same h.pools.capacity?_clear
  | assign e k x =>
    exact h.grown_onLive (r.assign_eq e k x) (fun p hp => hp.assign e x)
      fun p hp => hp.capacity_assign (hl k) e x
  | replace e k x =>
    apply Pools.grown_of_same
    simp only [Command.perform, replace_eq]
    split
    · exact h.pools.capacity?_replace e x
    · rfl
  | assignOrReplace e k x =>
    exact h.grown_onLive (r.assignOrReplace_eq e k x) (fun p hp => hp.assignOrReplace e x)
      fun p hp => hp.capacity_assignOrReplace (hl k) e x
  | delete e q =>
    apply Pools.grown_of_same
    rcases r.delete_cases e q with ⟨_, hd⟩ | ⟨-, hd⟩
    · simp only [Command.perform, hd]
    · simp only [Command.perform, hd]
      exact h.pools.capacity?_deleteAll e q
  | resetPools q => exact Pools.grown_of_same (h.pools.capacity?_clearAll q)
  | modify e k f =>
    apply Pools.grown_of_same
    simp only [Command.perform, Registry.modify]
    split
    · exact h.pools.capacity?_modify (fun p hp => hp.modify e f) fun p => p.capacity_modify e f
    · rfl
  | modifyMany e q f =>
    apply Pools.grown_of_same
    simp only [Command.perform, Registry.modifyMany]
    split
    · rfl
    · exact h.pools.capacity?_store e _

theorem capacity?_query {q : List κ} {x : Query κ q} (hx : x.Views r) (h : r.Valid)
    (ws : List (Query.Write q)) : (x.after ws).pools.capacity? = x.pools.capacity? := by
  induction ws generalizing x with
  | nil => rfl
  | cons w ws ih =>
    apply (ih (hx.run h w)).trans
    cases w with
    | modify e f =>
      simp only [Query.Write.run]
      split
      · rfl
      · exact hx.pools.capacity?_store e _
    | forEach f s =>
      rw [Query.Write.run, hx.forEach_eq h]
      exact hx.pools.capacity?_storeRows _

theorem Valid.grown_run (h : r.Valid) (hl : ∀ k : κ, slotLimit ≤ valueLimit k) (a : Action κ) :
    r.pools.Grown r.sizing.poolCapacity (fun k => a.growth k r) (a.run r).pools := by
  cases a with
  | command c => exact h.grown_perform hl c
  | deleteOwned e q => exact Pools.grown_of_same (h.pools.capacity?_deleteAll e q)
  | reserve n =>
    apply Pools.grown_of_same
    simp only [Action.run]
    split
    · rename_i hr
      rw [reserve_eq_ok hr]
    · rfl
  | reservePool k n =>
    exact h.pools.grown_updateOrCreate (fun _ hp => hp.reserve n)
      fun p _ => p.capacity_reserve (hl k) n
  | forEach q f s =>
    apply Pools.grown_of_same
    cases hc : r.pools.claim [] q with
    | error cause => simp only [Action.run, Registry.forEach, hc]
    | ok =>
      simp only [Action.run, h.forEach_eq f s hc]
      exact h.pools.capacity?_storeRows _
  | query q ws =>
    apply Pools.grown_of_same
    simp only [Action.run]
    split
    · rename_i x hx
      obtain ⟨hv, hp⟩ := h.views_query hx
      exact (capacity?_query hv h ws).trans (congrArg Pools.capacity? hp)
    · rfl
  | writePool k w => exact h.pools.grown_write (hl k) w

/-- A kind without a pool has the room that its pool would be created with. -/
theorem Valid.isGreatest_room_after (h : r.Valid) (hl : ∀ k : κ, slotLimit ≤ valueLimit k) (k : κ)
    {ns : List Nat}
    (hr : IsGreatest {n | n ∈ ns} ((r.pools.capacity? k).getD r.sizing.poolCapacity))
    (as : List (Action κ)) :
    IsGreatest {n | n ∈ r.rooms (Action.growth k) ns as}
      (((r.after as).pools.capacity? k).getD r.sizing.poolCapacity) := by
  -- The capacity stays the greatest of the rooms granted so far, which are carried along.
  induction as generalizing r ns with
  | nil => exact hr
  | cons a as ih =>
    have hroom := (h.grown_run hl a).room k
    have hz := h.sizing_run a
    rw [← hz]
    apply ih (h.run a)
    rw [hz, hroom]
    exact (a.growth k r).isGreatest_rooms hr

theorem Valid.keepsRoom_run (h : r.Valid) (hl : ∀ k : κ, slotLimit ≤ valueLimit k)
    (ha : a.seeksRoom = false ∨ a.Refused r) : r.KeepsRoom (a.run r) := by
  constructor
  · rcases h.bounds_cases a with rfl | ⟨n, rfl⟩ | ⟨-, hs⟩
    · rcases ha with ha | ⟨cause, hr⟩
      · cases ha
      · exact congrArg capacity (h.create_refused (refusal?_eq_some_iff.mp hr))
    · rcases ha with ha | ⟨fault, hr⟩
      · cases ha
      · simp only [Action.run, hr]
    · exact hs.capacity
  · intro k n hk
    have hnone : a.growth k r = .none :=
      ha.elim (fun hs => Action.growth_of_frugal hs k r) fun hr => Action.growth_of_refused hr k
    have hg := (h.grown_run hl a).capacity?_eq hk
    rw [hnone] at hg
    exact hg

theorem Valid.pairs_run (h : r.Valid) (ha : a.Reserves) :
    (a.run r).entities = r.entities ∧ (a.run r).recycled.toList = r.recycled.toList ∧
      (a.run r).issued = r.issued ∧ (a.run r).pools.pairs = r.pools.pairs := by
  cases a with
  | reserve n =>
    simp only [Action.run]
    split
    · rename_i hr
      rw [reserve_eq_ok hr]
      exact ⟨rfl, rfl, rfl, rfl⟩
    · exact ⟨rfl, rfl, rfl, rfl⟩
  | reservePool k n => exact ⟨rfl, rfl, rfl, h.pools.pairs_reserve k _ n⟩
  | writePool k w =>
    cases w with
    | reserve n =>
      exact ⟨rfl, rfl, rfl, h.pools.pairs_modify (fun p hp => hp.reserve n)
        fun p _ => p.pairs_reserve n⟩
    | _ => exact ha.elim
  | _ => exact ha.elim

theorem Valid.sameContents_run (h : r.Valid) (hl : ∀ k : κ, slotLimit ≤ valueLimit k)
    (ha : a.Reserves) : r.SameContents (a.run r) := by
  have h' := h.run a
  obtain ⟨he, hw, hi, hp⟩ := h.pairs_run ha
  refine ⟨he, hw, hi, fun e => ?_, fun k => congrFun hp k, fun e k => ?_, fun k hk => ?_⟩
  · rw [Bool.eq_iff_iff, h'.isLive_iff, h.isLive_iff, he]
  · rw [h'.get?_eq, h.get?_eq, he, h'.pools.value?_eq_lookup, h.pools.value?_eq_lookup, hp]
  · have hkept := (h.grown_run hl a).kept k
    rw [Pools.capacity?, Option.isSome_map, Pools.capacity?, Option.isSome_map] at hkept
    rw [Registry.hasPool, h.pools.contains_eq] at hk
    rw [Registry.hasPool, h'.pools.contains_eq]
    exact hkept hk

end Registry

open Registry in
/-- After every run the capacity of the registry is the greatest of the configured one, all that was
reserved and the count of issued numbers, and the capacity of a pool is the greatest of the
configured one and all that was granted to it, where a pool that is put in its place comes with its
own. Creation reports that the set of entities grows if and only if its capacity does. What seeks no
room and what is refused leaves all capacities as they were, and what reserves room leaves all
contents as they were. -/
theorem capacities_are_peaks (hl : ∀ k : κ, slotLimit ≤ valueLimit k) {sizing : Sizing}
    {r : Registry κ} (hr : ofSizing sizing = .ok r) (as : List (Action κ)) :
    IsGreatest {n | n = (r.after as).issued ∨
        n ∈ r.rooms Action.reserved [sizing.entityCapacity] as} (r.after as).capacity ∧
    (∀ k n, (r.after as).poolCapacity? k = some n →
      IsGreatest {m | m ∈ r.rooms (Action.growth k) [sizing.poolCapacity] as} n) ∧
    ((∃ e n, .growingEntities e n ∈ (r.after as).create.events) ↔
      (r.after as).capacity < (r.after as).create.state.capacity) ∧
    (∀ a : Action κ, a.seeksRoom = false ∨ a.Refused (r.after as) →
      (r.after as).KeepsRoom (a.run (r.after as))) ∧
    ∀ a : Action κ, a.Reserves → (r.after as).SameContents (a.run (r.after as)) := by
  have h := valid_ofSizing hr
  have h' := (h.after as).1
  have hsingle (c : Nat) : IsGreatest {n | n ∈ [c]} c := by
    simp [isGreatest_singleton]
  have heq := ofSizing_eq_ok hr
  have hcap : r.capacity = max r.issued sizing.entityCapacity := by
    rw [heq]
    exact Pool.capacity_grow SparseSet.empty sizing.entityCapacity
  have hnone (k : κ) : (r.pools.capacity? k).getD r.sizing.poolCapacity = sizing.poolCapacity := by
    rw [heq]
    rfl
  refine ⟨h.isGreatest_capacity_after (hsingle _) hcap as, fun k n hk => ?_,
    h'.exists_growing_create, fun a ha => h'.keepsRoom_run hl ha,
    fun a ha => h'.sameContents_run hl ha⟩
  have hk' : (r.after as).pools.capacity? k = some n := hk
  have hstart := hsingle sizing.poolCapacity
  rw [← hnone k] at hstart
  have hroom := h.isGreatest_room_after hl k hstart as
  rw [hk', hnone k] at hroom
  exact hroom

/-- Three entities are created where two fit, and room for five is reserved. The pool of health is
created for the last of them and grows for a number that was never issued. More room than an
allocator gives is refused. -/
theorem capacities_are_peaks_health :
    ∃ (r : Registry (Drift.Kind Empty)) (as : List (Action (Drift.Kind Empty))),
      Registry.ofSizing ⟨2, 1⟩ = .ok r ∧
      IsGreatest {n | n = 3 ∨ n ∈ [5, 2]} (r.after as).capacity ∧
      (r.after as).poolCapacity? .health = some 7 ∧
      IsGreatest {m | m ∈ [4, 7, 3, 1]} 7 ∧
      ∃ a : Action (Drift.Kind Empty), a = .reservePool .health slotLimit ∧
        a.Refused (r.after as) ∧ (r.after as).KeepsRoom (a.run (r.after as)) ∧
        (r.after as).SameContents (a.run (r.after as)) := by
  let r : Registry (Drift.Kind Empty) :=
    { live := SparseSet.empty.grow 2, recycled := SparseSet.empty.grow 2, sizing := ⟨2, 1⟩ }
  let as : List (Action (Drift.Kind Empty)) := [.command .create, .command .create,
    .command .create, .reserve 5, .command (.assign ⟨2⟩ .health (Drift.Health.full 9)),
    .writePool .health (.assign ⟨6⟩ (Drift.Health.full 9)), .command (.destroy ⟨2⟩),
    .reservePool .health 4]
  let a : Action (Drift.Kind Empty) := .reservePool .health slotLimit
  have hr : Registry.ofSizing ⟨2, 1⟩ = .ok r := rfl
  have hl : ∀ k : Drift.Kind Empty, slotLimit ≤ valueLimit k := by
    intro k
    cases k with
    | other k => cases k
    | _ => exact Nat.le_refl _
  have hissued : (r.after as).issued = 3 := by decide +kernel
  have hreserved : r.rooms Action.reserved [2] as = [5, 2] := by decide +kernel
  have hrooms : r.rooms (Action.growth .health) [1] as = [4, 7, 3, 1] := by decide +kernel
  have hcap : (r.after as).poolCapacity? .health = some 7 := by decide +kernel
  have ha : a.refusal? (r.after as) =
      some (.allocationFailed (name (Drift.Kind.health : Drift.Kind Empty)) slotLimit) := by
    decide +kernel
  obtain ⟨hentities, hpools, -, hkeeps, hcontents⟩ := capacities_are_peaks hl hr as
  have hpool := hpools .health 7 hcap
  rw [hissued, hreserved] at hentities
  rw [hrooms] at hpool
  exact ⟨r, as, hr, hentities, hcap, hpool, a, rfl, ⟨_, ha⟩, hkeeps a (.inr ⟨_, ha⟩),
    hcontents a trivial⟩

end TickWorld
