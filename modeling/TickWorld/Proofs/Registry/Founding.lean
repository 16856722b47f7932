import TickWorld.Proofs.Storage.Lending
import TickWorld.Proofs.Registry.Capacity

namespace TickWorld

open ComponentKind (name)

variable {κ : Type} [DecidableEq κ] [ComponentKind κ]

/-- The kind whose pool an action uses, and creates if there is none. -/
def Action.uses? : Action κ → Registry κ → Option κ
  | command (.assign e k _), r => if r.isLive e then some k else none
  | command (.assignOrReplace e k _), r => if r.isLive e then some k else none
  | reservePool k _, _ => some k
  | _, _ => none

/-- The kinds whose pools an action creates. -/
def Action.founds (a : Action κ) (r : Registry κ) : List κ :=
  match a.uses? r with
  | none => []
  | some k => r.pools.founded k r.sizing.poolCapacity

/-- The kinds whose pools a run creates, in the order of creation. -/
def Registry.founded (r : Registry κ) : List (Action κ) → List κ
  | [] => []
  | a :: as => a.founds r ++ (a.run r).founded as

namespace Pool

variable {k : κ} {s : String} {e : Entity} {x : Value k}

omit [DecidableEq κ] in
theorem reserve_ne_unregistered (p : Pool k) {n : Nat} :
    (p.reserve n).1 ≠ .error (.unregisteredComponent s) := by
  intro hr
  cases reserve_eq_error hr

omit [DecidableEq κ] in
theorem assign_ne_unregistered (p : Pool k) :
    (p.assign e x).1 ≠ .error (.unregisteredComponent s) := by
  intro hr
  cases hp : p.has e with
  | true =>
    rw [assign_of_has hp] at hr
    cases hr
  | false =>
    cases hg : (p.growFor e).1 with
    | error cause =>
      rw [assign_of_refused hp hg] at hr
      cases hr
      cases growFor_eq_error hg
    | ok =>
      rw [assign_of_granted hp hg] at hr
      cases hr

omit [DecidableEq κ] in
theorem assignOrReplace_ne_unregistered (p : Pool k) :
    (p.assignOrReplace e x).1 ≠ .error (.unregisteredComponent s) := by
  rw [Pool.assignOrReplace]
  split
  · intro hr
    cases hr
  · exact p.assign_ne_unregistered

end Pool

namespace Pools

/-- The pools are those of some kinds, in the order of a list. The entries number this list, and
whatever is looked up by its kind is a pool of this kind. -/
structure Filed (t : Pools κ) (ks : List κ) : Prop where
  nodup : ks.Nodup
  size : t.size = ks.length
  slots : (t.slots.map Prod.snd).Perm (List.range t.size)
  slot?_iff : ∀ k slot, t.slot? k = some slot ↔ ks[slot]? = some k
  distinct : ∀ k k' slot, t.slot? k = some slot → t.slot? k' = some slot → k = k'
  cast : ∀ k slot, t.slot? k = some slot →
    ∃ x p, t.pools[slot]? = some x ∧ x.cast? k = some p ∧ t.get? k = some p
  census : t.census = ks.map fun k => (name k, ((t.get? k).map Pool.size).getD 0)
  namesOwned : ∀ e, t.namesOwned e = (ks.filter (t.owns e)).map name

/-- The pools can be lent one by one, whatever was asked for before: each request is answered by
the kind alone, each pool is lent at most once, and a list of kinds can be claimed exactly if all
its pools are lent. -/
structure LendsOnce (t : Pools κ) : Prop where
  answer : ∀ asked k, ((t.split.afterTaking asked).take k).1 = t.lends asked k
  unregistered : ∀ asked k s, t.lends asked k = .error (.unregisteredComponent s) →
    t.contains k = false
  distinct : ∀ ks, (t.split.lentSlots ks).Nodup
  claim : ∀ q, (t.split.borrow q).map (fun _ => ()) = t.claim [] q

/-- Whatever is done with the pool of a kind, the pool in the slot of the kind answers, unless there
is none and none can be created. -/
def Serves (t : Pools κ) (k : κ) (capacity : Nat) : Prop :=
  ∀ {ρ : Type} (op : Pool k → Except Failure ρ × Pool k),
    (t.contains k = false ∧
      (t.updateOrCreate k capacity op).result = .error (.allocationFailed (name k) capacity)) ∨
    ∃ slot x p, (t.ensure k capacity).state.slot? k = some slot ∧
      (t.ensure k capacity).state.pools[slot]? = some x ∧ x.cast? k = some p ∧
      (t.updateOrCreate k capacity op).result = (op p).1

variable {t : Pools κ} {ks : List κ} {k : κ} {capacity : Nat}

theorem Valid.filed (h : t.Valid) (hx : (empty : Pools κ).Extended ks t) : t.Filed ks := by
  obtain ⟨rfl, hentries⟩ := hx.slots_eq
  refine ⟨h.nodup_kinds, t.length_kinds.symm, ?_, fun k slot => h.slot?_iff_kinds,
    fun k k' slot hs hs' => h.slot?_inj hs hs', ?_, ?_, ?_⟩
  · rw [hentries, List.map_reverse, List.zipIdx_map_snd, length_kinds, ← List.range_eq_range']
    exact List.reverse_perm _
  · intro k slot hs
    obtain ⟨p, hp⟩ := h.slot?_iff.mp hs
    exact ⟨_, p, hp, AnyPool.cast?_self p, h.get?_eq_some_iff.mpr ⟨slot, hp⟩⟩
  · rw [census, kinds, List.map_map]
    apply List.map_congr_left
    intro p hp
    rw [Function.comp_apply, h.get?_of_mem (Array.mem_def.mpr hp)]
    rfl
  · intro e
    rw [namesOwned, kinds, List.filter_map, List.map_map]
    congr 1
    apply List.filter_congr
    intro p hp
    exact h.has_of_mem (Array.mem_def.mpr hp) e

theorem Valid.serves (h : t.Valid) (k : κ) (capacity : Nat) : t.Serves k capacity := by
  intro ρ op
  cases hg : (t.ensure k capacity).result with
  | error cause =>
    cases ensure_eq_error hg
    left
    refine ⟨?_, (updateOrCreate_of_refused hg).1⟩
    rcases t.ensure_cases k capacity with ⟨-, he⟩ | ⟨hc, -⟩ | ⟨hc, -⟩
    · rw [he] at hg
      cases hg
    · exact hc
    · exact hc
  | ok =>
    right
    obtain ⟨slot, hp⟩ := (h.ensure k capacity).get?_eq_some_iff.mp (h.get?_ensure_self hg)
    exact ⟨slot, _, t.target k capacity, (h.ensure k capacity).slot?_iff.mpr ⟨_, hp⟩, hp,
      AnyPool.cast?_self _, (h.updateOrCreate_of_granted hg).1⟩

theorem Valid.updateOrCreate_ne_unregistered {ρ : Type} {op : Pool k → Except Failure ρ × Pool k}
    {s : String} (h : t.Valid) (hop : ∀ p, (op p).1 ≠ .error (.unregisteredComponent s)) :
    (t.updateOrCreate k capacity op).result ≠ .error (.unregisteredComponent s) := by
  rcases h.serves k capacity op with ⟨-, hr⟩ | ⟨_, _, p, -, -, -, hr⟩
  · rw [hr]
    intro he
    cases he
  · rw [hr]
    exact hop p

theorem Valid.lendsOnce (h : t.Valid) : t.LendsOnce where
  answer := h.take_afterTaking
  unregistered := by
    intro asked k s hl
    rw [lends] at hl
    rw [contains]
    cases hs : t.slot? k with
    | none => rfl
    | some slot =>
      obtain ⟨p, hp⟩ := h.slot?_iff.mp hs
      rw [hs, h.get?_eq_some_iff.mpr ⟨slot, hp⟩] at hl
      simp only at hl
      split at hl <;> cases hl
  distinct ks := (h.nodup_lentSlots t.lent_split ks).1
  claim := h.claim_lent t.lent_split

end Pools

namespace Registry

variable {r : Registry κ} {a : Action κ} {k : κ}

/-- A pool comes into being if an action uses it, there is none, and the configured room is
given. -/
theorem mem_founds_iff :
    k ∈ a.founds r ↔ a.uses? r = some k ∧ r.hasPool k = false ∧
      ((Pool.empty : Pool k).reserve r.sizing.poolCapacity).1 = .ok () := by
  rw [Action.founds, hasPool]
  cases a.uses? r with
  | none => simp
  | some k' =>
    rw [Pools.mem_founded_iff, Option.some.injEq]
    constructor
    · rintro ⟨rfl, hc, hr⟩
      exact ⟨rfl, hc, hr⟩
    · rintro ⟨rfl, hc, hr⟩
      exact ⟨rfl, hc, hr⟩

omit [DecidableEq κ] in
theorem extended_foldl_retire (r : Registry κ) (es : List Entity) :
    r.pools.Extended [] (es.foldl retire r).pools := by
  induction es generalizing r with
  | nil => exact .refl _
  | cons e es ih => exact (r.pools.extended_eraseEntity e).trans (ih (r.retire e))

theorem Valid.extended_perform (h : r.Valid) (c : Command κ) :
    r.pools.Extended ((Action.command c).founds r) (c.perform r).state.pools := by
  cases c with
  | create =>
    rcases h.create_cases with ⟨e, r₀, -, hc, -, hp, -⟩ | ⟨-, hc⟩
    · simp only [Command.perform, hc, enliven, hp]
      exact r.pools.extended_eraseEntity e
    · simp only [Command.perform, hc]
      exact .refl _
  | destroy e =>
    simp only [Command.perform, Registry.destroy]
    split
    · exact r.pools.extended_eraseEntity e
    · exact .refl _
  | destroyMany es =>
    obtain ⟨rest, -, -, hd⟩ := h.destroyCounting_leading 0 es
    simp only [Command.perform, destroyMany, hd]
    exact r.extended_foldl_retire _
  | destroyWith q => exact r.extended_foldl_retire _
  | reset => exact r.pools.extended_clear
  | assign e k x =>
    simp only [Command.perform, assign_eq, Action.founds, Action.uses?]
    by_cases he : r.isLive e = true
    · simp only [he, if_true]
      exact h.pools.extended_updateOrCreate k _ _
    · simp only [he]
      exact .refl _
  | replace e k x =>
    simp only [Command.perform, replace_eq]
    split
    · exact h.pools.extended_update k _ _
    · exact .refl _
  | assignOrReplace e k x =>
    simp only [Command.perform, assignOrReplace_eq, Action.founds, Action.uses?]
    by_cases he : r.isLive e = true
    · simp only [he, if_true]
      exact h.pools.extended_updateOrCreate k _ _
    · simp only [he]
      exact .refl _
  | delete e q =>
    rcases r.delete_cases e q with ⟨_, hd⟩ | ⟨-, hd⟩
    · simp only [Command.perform, hd]
      exact .refl _
    · simp only [Command.perform, hd]
      exact r.pools.extended_deleteAll e q
  | resetPools q => exact r.pools.extended_clearAll q
  | modify e k f =>
    simp only [Command.perform, Registry.modify]
    split
    · exact r.pools.extended_modify k _
    · exact .refl _
  | modifyMany e q f =>
    simp only [Command.perform, Registry.modifyMany]
    split
    · exact .refl _
    · exact r.pools.extended_store e _

theorem extended_query {q : List κ} (x : Query κ q) (ws : List (Query.Write q)) :
    x.pools.Extended [] (x.after ws).pools := by
  induction ws generalizing x with
  | nil => exact .refl _
  | cons w ws ih =>
    have hw : x.pools.Extended [] (w.run x).pools := by
      cases w with
      | modify e f =>
        simp only [Query.Write.run]
        split
        · exact .refl _
        · exact x.pools.extended_store e _
      | forEach f s => exact Pools.extended_foldl_visit f (0, s, x.pools) x.live.dense
    exact hw.trans (ih _)

/-- An action keeps every pool where it stands, and creates those that it founds. -/
theorem Valid.extended_run (h : r.Valid) (a : Action κ) :
    r.pools.Extended (a.founds r) (a.run r).pools := by
  cases a with
  | command c => exact h.extended_perform c
  | deleteOwned e q => exact r.pools.extended_deleteAll e q
  | reserve n =>
    simp only [Action.run]
    split
    · rename_i hr
      rw [reserve_eq_ok hr]
      exact .refl _
    · exact .refl _
  | reservePool k n => exact h.pools.extended_updateOrCreate k _ _
  | forEach q f s =>
    simp only [Action.run, Registry.forEach]
    split
    · exact .refl _
    · exact Pools.extended_foldl_visit f (0, s, r.pools) r.live.dense
  | query q ws =>
    simp only [Action.run]
    split
    · rename_i x hx
      have hp : x.pools = r.pools := (h.views_query hx).2
      have hq := extended_query x ws
      rw [hp] at hq
      exact hq
    · exact .refl _
  | writePool k w => exact r.pools.extended_modify k _

theorem Valid.extended_after (h : r.Valid) (as : List (Action κ)) :
    r.pools.Extended (r.founded as) (r.after as).pools := by
  induction as generalizing r with
  | nil => exact .refl _
  | cons a as ih => exact (h.extended_run a).trans (ih (h.run a))

theorem Valid.sizing_after (h : r.Valid) (as : List (Action κ)) :
    (r.after as).sizing = r.sizing := by
  induction as generalizing r with
  | nil => rfl
  | cons a as ih => exact (ih (h.run a)).trans (h.sizing_run a)

theorem founded_append (r : Registry κ) (as bs : List (Action κ)) :
    r.founded (as ++ bs) = r.founded as ++ (r.after as).founded bs := by
  induction as generalizing r with
  | nil => rfl
  | cons a as ih =>
    rw [List.cons_append, founded, ih, founded, List.append_assoc]
    rfl

theorem Valid.not_unregistered (h : r.Valid) (ha : a.uses? r = some k) (s : String) :
    a.refusal? r ≠ some (.unregisteredComponent s) := by
  cases a with
  | command c =>
    cases c with
    | assign e k' x =>
      intro hr
      rw [Action.uses?] at ha
      split at ha
      · rename_i he
        rw [Action.refusal?, Command.refusal?, refusal?_eq_some_iff, Command.perform, assign_eq,
          if_pos he] at hr
        exact h.pools.updateOrCreate_ne_unregistered (fun p => p.assign_ne_unregistered) hr
      · cases ha
    | assignOrReplace e k' x =>
      intro hr
      rw [Action.uses?] at ha
      split at ha
      · rename_i he
        rw [Action.refusal?, Command.refusal?, refusal?_eq_some_iff, Command.perform,
          assignOrReplace_eq, if_pos he] at hr
        exact h.pools.updateOrCreate_ne_unregistered (fun p => p.assignOrReplace_ne_unregistered) hr
      · cases ha
    | _ => cases ha
  | reservePool k' n =>
    intro hr
    rw [Action.refusal?, refusal?_eq_some_iff] at hr
    exact h.pools.updateOrCreate_ne_unregistered (fun p => p.reserve_ne_unregistered) hr
  | _ => cases ha

end Registry

open Registry in
/-- After every run the pools are those of the kinds whose pools were created, in the order of
creation, each found in the slot of its kind. A further action adds to them the pool of the kind
that it uses, if there is none and the configured room is given, and nothing else. No pool is found
to be of another kind than the one it was looked up by, and none is lent twice. -/
theorem pools_in_creation_order {sizing : Sizing} {r : Registry κ} (hr : ofSizing sizing = .ok r)
    (as : List (Action κ)) :
    (r.after as).pools.Filed (r.founded as) ∧
    (∀ e, (r.after as).isLive e = true → (r.after as).componentNames e =
      ((r.founded as).filter ((r.after as).pools.owns e)).map name) ∧
    (∀ bs, r.founded as <+: r.founded (as ++ bs)) ∧
    (∀ a : Action κ, r.founded (as ++ [a]) = r.founded as ++ a.founds (r.after as) ∧
      ∀ k, k ∈ a.founds (r.after as) ↔ a.uses? (r.after as) = some k ∧
        (r.after as).hasPool k = false ∧
        ((Pool.empty : Pool k).reserve sizing.poolCapacity).1 = .ok ()) ∧
    (∀ k c, (r.after as).pools.Serves k c) ∧
    (∀ (a : Action κ) k s, a.uses? (r.after as) = some k →
      a.refusal? (r.after as) ≠ some (.unregisteredComponent s)) ∧
    (r.after as).pools.LendsOnce := by
  have h := valid_ofSizing hr
  have h' := (h.after as).1
  have heq := ofSizing_eq_ok hr
  have hx : (Pools.empty : Pools κ).Extended (r.founded as) (r.after as).pools := by
    have hr' := h.extended_after as
    rw [heq] at hr' ⊢
    exact hr'
  have hz : (r.after as).sizing = sizing := by
    rw [h.sizing_after as, heq]
  have hfiled := h'.pools.filed hx
  refine ⟨hfiled, fun e he => ?_, fun bs => ?_, fun a => ⟨?_, fun k => ?_⟩,
    fun k c => h'.pools.serves k c, fun a k s ha => h'.not_unregistered ha s, h'.pools.lendsOnce⟩
  · rw [componentNames, if_pos he]
    exact hfiled.namesOwned e
  · rw [founded_append]
    exact List.prefix_append ..
  · rw [founded_append, founded, founded, List.append_nil]
  · rw [mem_founds_iff, hz]

/-- A pool of mana is created for a reservation that is then refused, and one of health on first
use. An assignment to a number that is not alive creates nothing. Lifetimes come next, after both;
health is lent once. -/
theorem pools_in_creation_order_mana :
    ∃ (r : Registry (Drift.Kind Empty)) (as : List (Action (Drift.Kind Empty))),
      Registry.ofSizing ⟨2, 1⟩ = .ok r ∧ r.founded as = [.mana, .health] ∧
      (r.after as).pools.Filed [.mana, .health] ∧
      (r.after as).pools.slot? .health = some 1 ∧
      (r.founded (as ++ [.reservePool .lifetime 3]) = [.mana, .health, .lifetime]) ∧
      (r.after as).pools.LendsOnce ∧
      (r.after as).pools.split.lentSlots [.health, .lifetime, .mana, .health] = [1, 0] := by
  let r : Registry (Drift.Kind Empty) :=
    { live := SparseSet.empty.grow 2, recycled := SparseSet.empty.grow 2, sizing := ⟨2, 1⟩ }
  let as : List (Action (Drift.Kind Empty)) := [.command .create, .reservePool .mana slotLimit,
    .command (.assign ⟨7⟩ .lifetime ⟨4⟩), .command (.assign ⟨0⟩ .health (Drift.Health.full 9)),
    .command (.destroy ⟨0⟩)]
  have hr : Registry.ofSizing ⟨2, 1⟩ = .ok r := rfl
  have hfounded : r.founded as = [.mana, .health] := by decide +kernel
  have hfounds : Action.founds (.reservePool .lifetime 3) (r.after as) =
      [(.lifetime : Drift.Kind Empty)] := by decide +kernel
  have hlent : (r.after as).pools.split.lentSlots [.health, .lifetime, .mana, .health] =
      [1, 0] := by decide +kernel
  obtain ⟨hfiled, -, -, hnext, -, -, hlends⟩ := pools_in_creation_order hr as
  have hnext := (hnext (.reservePool .lifetime 3)).1
  rw [hfounded] at hfiled hnext
  rw [hfounds] at hnext
  exact ⟨r, as, hr, hfounded, hfiled, (hfiled.slot?_iff .health 1).mpr rfl, hnext, hlends, hlent⟩

end TickWorld
