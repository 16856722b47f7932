import TickWorld.Proofs.Registry.Turnover
import TickWorld.Proofs.Storage.Guarded

namespace TickWorld

open ComponentKind (name valueLimit)

variable {κ : Type} [DecidableEq κ] [ComponentKind κ]

def refusal? {α : Type} : Except Failure α → Option Failure
  | .error cause => some cause
  | .ok _ => none

theorem refusal?_eq_some_iff {α : Type} {answer : Except Failure α} {cause : Failure} :
    refusal? answer = some cause ↔ answer = .error cause := by
  cases answer <;> simp [refusal?]

def Command.refusal? : (c : Command κ) → c.Answer → Option Failure
  | create, answer => TickWorld.refusal? answer
  | destroy _, answer => TickWorld.refusal? answer
  | destroyMany _, answer => TickWorld.refusal? answer
  | destroyWith _, _ => none
  | reset, _ => none
  | assign .., answer => TickWorld.refusal? answer
  | replace .., answer => TickWorld.refusal? answer
  | assignOrReplace .., answer => TickWorld.refusal? answer
  | delete .., answer => TickWorld.refusal? answer
  | resetPools _, _ => none
  | modify .., _ => none
  | modifyMany .., answer => TickWorld.refusal? answer

/-- Why an action is refused in a registry, if it is. -/
def Action.refusal? : Action κ → Registry κ → Option Failure
  | command c, r => c.refusal? (c.perform r).result
  | reservePool k n, r => TickWorld.refusal? (r.reservePool k n).result
  | query q _, r => TickWorld.refusal? (r.query q)
  | _, _ => none

/-- What a refused action leaves of a registry. -/
def Action.Leaves (r : Registry κ) (cause : Failure) (r' : Registry κ) : Action κ → Prop
  | command (.destroyMany es) =>
    ∃ done e rest, es = done ++ e :: rest ∧ cause = .deadEntity e ∧
      r.destroyMany done = ⟨.ok done.length, r', #[]⟩ ∧ e ∉ r'.entities
  | reservePool k n =>
    -- A new pool has the capacity that is configured before it is asked for more.
    if r.hasPool k = false ∧ r.sizing.poolCapacity < slotLimit then
      cause = .allocationFailed (name k) n ∧
        ∃ p : Pool k, r' = { r with pools := r.pools.push k p } ∧ p.entities = [] ∧
          p.values = #[] ∧ p.capacity = r.sizing.poolCapacity
    else r' = r
  | _ => r' = r

namespace Pool

variable {k : κ} {p : Pool k} {e : Entity} {n : Nat} {cause : Failure}

omit [DecidableEq κ] in
theorem reserve_refused (hl : slotLimit ≤ valueLimit k) (hr : (p.reserve n).1 = .error cause) :
    slotLimit ≤ n ∧ (p.reserve n).2 = p := by
  rw [reserve_eq] at hr ⊢
  split at hr
  · rename_i hg
    simp only at hr
    split at hr
    · rename_i hv
      have hn : slotLimit ≤ n := Nat.le_trans hl hv.2
      -- The owners were not refused so much room, so they have it already.
      have hcap : n ≤ p.owners.capacity :=
        (SparseSet.canGrow_iff.mp hg).resolve_right (Nat.not_lt.mpr hn)
      rw [if_pos hg, SparseSet.grow_of_le hcap]
      exact ⟨hn, rfl⟩
    · cases hr
  · rename_i hg
    have hn := mt SparseSet.canGrow_iff.mpr hg
    rw [if_neg hg]
    exact ⟨by omega, rfl⟩

omit [DecidableEq κ] in
theorem Valid.assign_refused (h : p.Valid) (hl : slotLimit ≤ valueLimit k) {value : Value k}
    (hr : (p.assign e value).1 = .error cause) :
    p.has e = true ∧ (p.assign e value).2 = p := by
  cases hp : p.has e with
  | false =>
    -- There is room for a value of every entity.
    rw [assign_of_granted hp (h.growFor_of_slotLimit hl e)] at hr
    cases hr
  | true =>
    rw [assign_of_has hp]
    exact ⟨rfl, rfl⟩

omit [DecidableEq κ] in
theorem Valid.assignOrReplace_granted (h : p.Valid) (hl : slotLimit ≤ valueLimit k)
    (value : Value k) : (p.assignOrReplace e value).1 = .ok () := by
  cases hp : p.has e with
  | false =>
    rw [Pool.assignOrReplace, hp, if_neg Bool.false_ne_true,
      assign_of_granted hp (h.growFor_of_slotLimit hl e)]
  | true => rw [Pool.assignOrReplace, if_pos hp]

omit [DecidableEq κ] in
theorem replace_refused {value : Value k} (hr : (p.replace e value).1 = .error cause) :
    (p.replace e value).2 = p := by
  simp only [Pool.replace] at hr ⊢
  split at hr
  · rfl
  · cases hr

omit [DecidableEq κ] in
theorem fresh_of_granted (hr : ((empty : Pool k).reserve n).1 = .ok ()) :
    n < slotLimit ∧ (Pools.fresh k n).entities = [] ∧ (Pools.fresh k n).values = #[] ∧
      (Pools.fresh k n).capacity = n := by
  obtain ⟨hg, hp⟩ := reserve_of_ok hr
  have hlimit : slotLimit = 0x1000000000000000 := rfl
  have hn : n ≤ 0 ∨ n < slotLimit := SparseSet.canGrow_iff.mp hg
  have hcap : ((SparseSet.empty : SparseSet Entity).grow n).capacity = n := by
    simp [SparseSet.capacity, SparseSet.grow, SparseSet.empty]
  rw [Pools.fresh, hp]
  exact ⟨by omega, rfl, rfl, hcap⟩

end Pool

namespace Pools

variable {t : Pools κ} {k : κ} {e : Entity} {capacity : Nat} {cause : Failure} {ρ : Type}

/-- An operation that is refused only by a pool in which the entity has a value, and changes
nothing then, creates no pool either. -/
theorem Valid.updateOrCreate_refused {op : Pool k → Except Failure ρ × Pool k} (h : t.Valid)
    (hop : ∀ p cause, p.Valid → (op p).1 = .error cause → p.has e = true ∧ (op p).2 = p)
    (hr : (t.updateOrCreate k capacity op).result = .error cause) :
    (t.updateOrCreate k capacity op).state = t := by
  cases hg : (t.ensure k capacity).result with
  | error cause => exact (updateOrCreate_of_refused hg).2
  | ok =>
    rw [(h.updateOrCreate_of_granted hg).1] at hr
    obtain ⟨hhas, hsame⟩ := hop _ _ (h.target k capacity) hr
    rw [h.has_target, h.isSome_value?] at hhas
    exact h.updateOrCreate_same (h.contains_of_owns hhas) hsame

theorem Valid.update_refused {absent : Except Failure ρ} {op : Pool k → Except Failure ρ × Pool k}
    (h : t.Valid) (hop : ∀ p cause, (op p).1 = .error cause → (op p).2 = p)
    (hr : (t.update k absent op).1 = .error cause) : (t.update k absent op).2 = t := by
  cases hp : t.get? k with
  | none => rw [update_of_none hp]
  | some p =>
    rw [h.update_of_some hp] at hr ⊢
    rw [hop p cause hr]
    exact h.modify_self hp

/-- A reservation that is refused leaves no trace but the pool that was created for it. -/
theorem Valid.reserve_refused (h : t.Valid) (hl : slotLimit ≤ valueLimit k) {n : Nat}
    (hr : (t.updateOrCreate k capacity (·.reserve n)).result = .error cause) :
    (t.updateOrCreate k capacity (·.reserve n)).state = (t.ensure k capacity).state ∧
      ((t.ensure k capacity).result = .ok () → cause = .allocationFailed (name k) n) := by
  cases hg : (t.ensure k capacity).result with
  | error cause' =>
    rw [(updateOrCreate_of_refused hg).2]
    refine ⟨?_, fun he => by cases he⟩
    rcases t.ensure_cases k capacity with ⟨-, he⟩ | ⟨-, _, -, he⟩ | ⟨-, -, he⟩
    · rw [he]
    · rw [he]
    · rw [he] at hg
      cases hg
  | ok =>
    rw [(h.updateOrCreate_of_granted hg).1] at hr
    rw [(h.updateOrCreate_of_granted hg).2, (Pool.reserve_refused hl hr).2]
    exact ⟨(h.ensure k capacity).modify_self (h.get?_ensure_self hg),
      fun _ => Pool.reserve_eq_error hr⟩

end Pools

namespace Registry

variable {r : Registry κ} {cause : Failure}

theorem Valid.create_refused (h : r.Valid) (hr : r.create.result = .error cause) :
    r.create.state = r := by
  rcases h.create_cases with ⟨e, r₀, -, hc, -⟩ | ⟨-, hc⟩
  · rw [hc] at hr
    cases hr
  · rw [hc]

omit [DecidableEq κ] in
theorem destroy_refused {e : Entity} (hr : (r.destroy e).result = .error cause) :
    (r.destroy e).state = r := by
  rw [destroy] at hr ⊢
  split at hr
  · cases hr
  · rename_i he
    rw [if_neg he]

theorem Valid.destroyMany_refused (h : r.Valid) {es : List Entity}
    (hr : (r.destroyMany es).result = .error cause) :
    ∃ done e rest, es = done ++ e :: rest ∧ cause = .deadEntity e ∧
      r.destroyMany done = ⟨.ok done.length, (r.destroyMany es).state, #[]⟩ ∧
      e ∉ (r.destroyMany es).state.entities := by
  obtain ⟨rest, hes, hdead, hc⟩ := h.destroyCounting_leading 0 es
  rw [destroyMany, hc] at hr ⊢
  cases rest with
  | nil => cases hr
  | cons e rest =>
    cases hr
    exact ⟨_, e, rest, hes, rfl, h.destroyMany_eq (nodup_leadingIn _ es) mem_leading, hdead e rfl⟩

theorem Valid.assign_refused (h : r.Valid) {e : Entity} {k : κ} {value : Value k}
    (hl : slotLimit ≤ valueLimit k) (hr : (r.assign e k value).result = .error cause) :
    (r.assign e k value).state = r := by
  rw [assign_eq] at hr ⊢
  cases he : r.isLive e with
  | false => rfl
  | true =>
    rw [he, if_pos rfl] at hr
    rw [if_pos rfl, Outcome.mapState, h.pools.updateOrCreate_refused
      (fun p cause hp => hp.assign_refused hl) hr]

theorem Valid.assignOrReplace_refused (h : r.Valid) {e : Entity} {k : κ} {value : Value k}
    (hl : slotLimit ≤ valueLimit k) (hr : (r.assignOrReplace e k value).result = .error cause) :
    (r.assignOrReplace e k value).state = r := by
  rw [assignOrReplace_eq] at hr ⊢
  cases he : r.isLive e with
  | false => rfl
  | true =>
    rw [he, if_pos rfl] at hr
    rw [if_pos rfl, Outcome.mapState, h.pools.updateOrCreate_refused (e := e) ?_ hr]
    intro p cause hp hc
    rw [hp.assignOrReplace_granted hl] at hc
    cases hc

theorem Valid.replace_refused (h : r.Valid) {e : Entity} {k : κ} {value : Value k}
    (hr : (r.replace e k value).result = .error cause) : (r.replace e k value).state = r := by
  rw [replace_eq] at hr ⊢
  cases he : r.isLive e with
  | false => rfl
  | true =>
    rw [he, if_pos rfl] at hr
    rw [if_pos rfl]
    simp only at hr ⊢
    rw [h.pools.update_refused (fun p cause => Pool.replace_refused) hr]

theorem delete_cases (r : Registry κ) (e : Entity) (q : List κ) :
    (∃ cause, r.delete e q = ⟨.error cause, r, #[]⟩) ∨
      (r.has e q = true ∧
        r.delete e q = ⟨.ok (), { r with pools := (r.pools.deleteAll e q).2 }, #[]⟩) := by
  rw [has, Pools.ownsAll, delete]
  cases r.isLive e with
  | false => exact .inl ⟨_, rfl⟩
  | true =>
    cases firstRepeat? [] q with
    | some k => exact .inl ⟨_, rfl⟩
    | none =>
      cases r.pools.missing? e q with
      | some k => exact .inl ⟨_, rfl⟩
      | none => exact .inr ⟨rfl, rfl⟩

theorem delete_refused {e : Entity} {q : List κ} (hr : (r.delete e q).result = .error cause) :
    (r.delete e q).state = r := by
  rcases r.delete_cases e q with ⟨_, hd⟩ | ⟨-, hd⟩
  · rw [hd]
  · rw [hd] at hr
    cases hr

/-- Nothing is detached unless all is. -/
theorem Valid.delete_whole (h : r.Valid) (e : Entity) (q : List κ) :
    (r.delete e q).state = r ∨
      ∀ k ∈ q, (r.get? e k).isSome = true ∧ (r.delete e q).state.get? e k = none := by
  rcases r.delete_cases e q with ⟨_, hd⟩ | ⟨hh, hd⟩
  · exact .inl (congrArg Outcome.state hd)
  · right
    intro k hk
    obtain ⟨he, -, ho⟩ := has_iff.mp hh
    constructor
    · rw [get?, if_pos he]
      exact (h.pools.isSome_value? e k).trans (ho k hk)
    · rw [hd]
      exact (if_pos he).trans ((h.pools.value?_deleteAll e e q k).trans (if_pos ⟨rfl, hk⟩))

theorem modifyMany_refused {e : Entity} {q : List κ} {f : Row Value q → Row Value q}
    (hr : (r.modifyMany e q f).result = .error cause) : (r.modifyMany e q f).state = r := by
  simp only [modifyMany] at hr ⊢
  split at hr
  · rfl
  · cases hr

theorem Valid.perform_refused (h : r.Valid) (hl : ∀ k : κ, slotLimit ≤ valueLimit k)
    (c : Command κ) (hr : c.refusal? (c.perform r).result = some cause) :
    (Action.command c).Leaves r cause (c.perform r).state := by
  cases c with
  | create => exact h.create_refused (refusal?_eq_some_iff.mp hr)
  | destroy e => exact destroy_refused (refusal?_eq_some_iff.mp hr)
  | destroyMany es => exact h.destroyMany_refused (refusal?_eq_some_iff.mp hr)
  | destroyWith q => cases hr
  | reset => cases hr
  | assign e k value => exact h.assign_refused (hl k) (refusal?_eq_some_iff.mp hr)
  | replace e k value => exact h.replace_refused (refusal?_eq_some_iff.mp hr)
  | assignOrReplace e k value => exact h.assignOrReplace_refused (hl k) (refusal?_eq_some_iff.mp hr)
  | delete e q => exact delete_refused (refusal?_eq_some_iff.mp hr)
  | resetPools q => cases hr
  | modify e k f => cases hr
  | modifyMany e q f => exact modifyMany_refused (refusal?_eq_some_iff.mp hr)

theorem Valid.reservePool_refused (h : r.Valid) {k : κ} {n : Nat} (hl : slotLimit ≤ valueLimit k)
    (hr : (r.reservePool k n).result = .error cause) :
    (Action.reservePool k n).Leaves r cause (r.reservePool k n).state := by
  obtain ⟨hs, hcause⟩ := h.pools.reserve_refused hl hr
  have hstate : (r.reservePool k n).state =
      { r with pools := (r.pools.ensure k r.sizing.poolCapacity).state } :=
    congrArg (fun t => { r with pools := t }) hs
  rw [Action.Leaves, hstate, hasPool]
  rcases r.pools.ensure_cases k r.sizing.poolCapacity with
    ⟨hc, he⟩ | ⟨hc, cause', hfail, he⟩ | ⟨hc, hok, he⟩
  · rw [if_neg (by simp [hc]), he]
  · have hcap : ¬r.sizing.poolCapacity < slotLimit :=
      Nat.not_lt.mpr (Pool.reserve_refused hl hfail).1
    rw [if_neg (fun hx => hcap hx.2), he]
  · obtain ⟨hcap, hshape⟩ := Pool.fresh_of_granted hok
    rw [if_pos ⟨hc, hcap⟩, he]
    exact ⟨hcause (by rw [he]), _, rfl, hshape⟩

theorem Valid.run_refused (h : r.Valid) (hl : ∀ k : κ, slotLimit ≤ valueLimit k) (a : Action κ)
    (hr : a.refusal? r = some cause) : a.Leaves r cause (a.run r) := by
  cases a with
  | command c => exact h.perform_refused hl c hr
  | reservePool k n => exact h.reservePool_refused (hl k) (refusal?_eq_some_iff.mp hr)
  | query q ws =>
    simp only [Action.run, refusal?_eq_some_iff.mp hr]
    rfl
  | deleteOwned e q => cases hr
  | reserve n => cases hr
  | forEach q f s => cases hr
  | writePool k w => cases hr

end Registry

/-- A refused action changes nothing, but for the entities that were destroyed before one that is
not alive, and for the pool that was created for a reservation. -/
theorem refusals_atomic (hl : ∀ k : κ, slotLimit ≤ valueLimit k) {r : Registry κ}
    (h : r.Reachable) :
    (∀ (a : Action κ) (cause : Failure), a.refusal? r = some cause →
      a.Leaves r cause (a.run r)) ∧
    ∀ (e : Entity) (q : List κ), (r.delete e q).state = r ∨
      ∀ k ∈ q, (r.get? e k).isSome = true ∧ (r.delete e q).state.get? e k = none :=
  ⟨fun a _ hr => h.valid.run_refused hl a hr, h.valid.delete_whole⟩

/-- An entity is named twice for destruction, and room is asked for a kind without a pool that no
allocator gives. -/
theorem refusals_atomic_twice :
    ∃ r : Registry (Drift.Kind Empty), r.Reachable ∧ r.entities = [⟨0⟩, ⟨1⟩] ∧
      ∃ a b : Action (Drift.Kind Empty), a = .command (.destroyMany [⟨1⟩, ⟨0⟩, ⟨1⟩]) ∧
        b = .reservePool .health slotLimit ∧ a.Leaves r (.deadEntity ⟨1⟩) (a.run r) ∧
        b.Leaves r (.allocationFailed (name (Drift.Kind.health : Drift.Kind Empty)) slotLimit)
          (b.run r) := by
  let r : Registry (Drift.Kind Empty) := { sizing := ⟨0, 0⟩ }
  let r' := r.after [.command .create, .command .create]
  let a : Action (Drift.Kind Empty) := .command (.destroyMany [⟨1⟩, ⟨0⟩, ⟨1⟩])
  let b : Action (Drift.Kind Empty) := .reservePool .health slotLimit
  have hr : r'.Reachable := (Registry.reachable_empty 0).after _
  have hl : ∀ k : Drift.Kind Empty, slotLimit ≤ valueLimit k := by
    intro k
    cases k with
    | other k => cases k
    | _ => exact Nat.le_refl _
  have ha : a.refusal? r' = some (.deadEntity ⟨1⟩) := by decide +kernel
  have hb : b.refusal? r' =
      some (.allocationFailed (name (Drift.Kind.health : Drift.Kind Empty)) slotLimit) := by
    decide +kernel
  have h := refusals_atomic hl hr
  exact ⟨r', hr, by decide +kernel, a, b, rfl, rfl, h.1 a _ ha, h.1 b _ hb⟩

end TickWorld
