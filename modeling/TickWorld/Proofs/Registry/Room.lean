import Mathlib.Order.Bounds.Basic
import TickWorld.Proofs.Registry.Refusal
import TickWorld.Proofs.Storage.PairList

namespace TickWorld

open ComponentKind (valueLimit)

/-- What one action does about the room in one place. -/
inductive Growth where
  | none
  /-- Room for the numbers below `n` was asked for and granted. -/
  | granted (n : Nat)
  /-- Something else was put there, which has room for the numbers below `n`. -/
  | exchanged (n : Nat)
deriving DecidableEq

namespace Growth

def ofAnswer {ε α : Type} (n : Nat) : Except ε α → Growth
  | .ok _ => granted n
  | .error _ => none

def grow : Growth → Nat → Nat
  | none, m => m
  | granted n, m => max n m
  | exchanged n, _ => n

/-- All that was granted since something was last put there, the last first. -/
def rooms : Growth → List Nat → List Nat
  | none, ns => ns
  | granted n, ns => n :: ns
  | exchanged n, _ => [n]

theorem ofAnswer_error {ε α : Type} {n : Nat} {answer : Except ε α} {cause : ε}
    (ha : answer = .error cause) : ofAnswer n answer = none := by
  rw [ha]
  rfl

/-- The room is the greatest that was granted. -/
theorem isGreatest_rooms (g : Growth) {ns : List Nat} {m : Nat}
    (h : IsGreatest {n | n ∈ ns} m) : IsGreatest {n | n ∈ g.rooms ns} (g.grow m) := by
  cases g with
  | none => exact h
  | granted n =>
    have hs : {x | x ∈ n :: ns} = insert n {x | x ∈ ns} := by
      ext x
      exact List.mem_cons
    exact hs ▸ h.insert n
  | exchanged n =>
    have hs : {x | x ∈ [n]} = {n} := by
      ext x
      exact List.mem_singleton
    exact hs ▸ isGreatest_singleton

end Growth

variable {κ : Type} [DecidableEq κ] [ComponentKind κ]

namespace Pool

variable {k : κ} {p : Pool k} {e : Entity} {x : Value k} {n : Nat}

section

omit [DecidableEq κ]

theorem Valid.capacity_assign (h : p.Valid) (hl : slotLimit ≤ valueLimit k) (e : Entity)
    (x : Value k) :
    (p.assign e x).2.capacity =
      (Growth.ofAnswer (e.index + 1) (p.assign e x).1).grow p.capacity := by
  cases hp : p.has e with
  | true =>
    rw [assign_of_has hp]
    rfl
  | false =>
    have hc := congrArg PairList.capacity (h.pairList_push hp x)
    rw [assign_of_granted hp (h.growFor_of_slotLimit hl e), growFor_snd]
    exact hc.trans (Nat.max_comm ..)

theorem capacity_modify (p : Pool k) (e : Entity) (f : Value k → Value k) :
    (p.modify e f).capacity = p.capacity :=
  congrArg SparseSet.capacity (p.owners_modify e f)

theorem capacity_replace (p : Pool k) (e : Entity) (x : Value k) :
    (p.replace e x).2.capacity = p.capacity := by
  simp only [Pool.replace]
  split
  · rfl
  · exact p.capacity_modify e _

theorem Valid.capacity_assignOrReplace (h : p.Valid) (hl : slotLimit ≤ valueLimit k) (e : Entity)
    (x : Value k) :
    (p.assignOrReplace e x).2.capacity =
      (Growth.ofAnswer (e.index + 1) (p.assignOrReplace e x).1).grow p.capacity := by
  rw [Pool.assignOrReplace]
  cases hp : p.has e with
  | true =>
    have hlt : e.index < p.capacity := h.owners.index_lt (h.has_iff.mp hp)
    rw [if_pos rfl, capacity_modify]
    exact (Nat.max_eq_right hlt).symm
  | false =>
    rw [if_neg Bool.false_ne_true]
    exact h.capacity_assign hl e x

theorem capacity_reserve (hl : slotLimit ≤ valueLimit k) (p : Pool k) (n : Nat) :
    (p.reserve n).2.capacity = (Growth.ofAnswer n (p.reserve n).1).grow p.capacity := by
  cases hr : (p.reserve n).1 with
  | error cause =>
    rw [(reserve_refused hl hr).2]
    rfl
  | ok =>
    rw [(reserve_of_ok hr).2]
    exact (capacity_grow p.owners n).trans (Nat.max_comm ..)

theorem pairs_reserve (p : Pool k) (n : Nat) : (p.reserve n).2.pairs = p.pairs := by
  rw [reserve_eq]
  split <;> rfl

theorem capacity_erase (p : Pool k) (e : Entity) : (p.erase e).capacity = p.capacity := by
  rw [capacity, owners_erase, SparseSet.capacity_erase, capacity]

end

def Write.growth (p : Pool k) : Write k → Growth
  | assign e x => .ofAnswer (e.index + 1) (p.assign e x).1
  | assignOrReplace e x => .ofAnswer (e.index + 1) (p.assignOrReplace e x).1
  | reserve n => .ofAnswer n (p.reserve n).1
  | exchange p _ => .exchanged p.capacity
  | _ => .none

def Write.Refused (p : Pool k) : Write k → Prop
  | assign e x => ∃ cause, (p.assign e x).1 = .error cause
  | assignOrReplace e x => ∃ cause, (p.assignOrReplace e x).1 = .error cause
  | replace e x => ∃ cause, (p.replace e x).1 = .error cause
  | reserve n => ∃ cause, (p.reserve n).1 = .error cause
  | _ => False

omit [DecidableEq κ] in
theorem Valid.capacity_write (h : p.Valid) (hl : slotLimit ≤ valueLimit k) (w : Write k) :
    (w.run p).capacity = (w.growth p).grow p.capacity := by
  cases w with
  | assign e x => exact h.capacity_assign hl e x
  | assignOrReplace e x => exact h.capacity_assignOrReplace hl e x
  | replace e x => exact p.capacity_replace e x
  | delete e => exact p.capacity_erase e
  | modify e f => exact p.capacity_modify e f
  | map f => rfl
  | clear => rfl
  | reserve n => exact capacity_reserve hl p n
  | exchange p _ => rfl

omit [DecidableEq κ] in
theorem Write.growth_of_refused {w : Write k} (hw : w.Refused p) : w.growth p = .none := by
  cases w with
  | assign e x =>
    obtain ⟨_, hr⟩ := hw
    exact Growth.ofAnswer_error hr
  | assignOrReplace e x =>
    obtain ⟨_, hr⟩ := hw
    exact Growth.ofAnswer_error hr
  | reserve n =>
    obtain ⟨_, hr⟩ := hw
    exact Growth.ofAnswer_error hr
  | replace e x => rfl
  | delete e => rfl
  | modify e f => rfl
  | map f => rfl
  | clear => rfl
  | exchange p hp => exact hw.elim

end Pool

namespace Pools

def capacity? (t : Pools κ) (k : κ) : Option Nat := (t.get? k).map Pool.capacity

/-- The pairs in the pool of a kind; there are none where there is no pool. -/
def pairs (t : Pools κ) (k : κ) : List (Entity × Value k) := ((t.get? k).map Pool.pairs).getD []

/-- The room of each kind has changed as stated, where a kind without a pool has the room `c` that
its pool would be created with. No pool is gone. -/
structure Grown (t : Pools κ) (c : Nat) (g : κ → Growth) (t' : Pools κ) : Prop where
  room : ∀ k, (t'.capacity? k).getD c = (g k).grow ((t.capacity? k).getD c)
  kept : ∀ k, (t.capacity? k).isSome = true → (t'.capacity? k).isSome = true

variable {t t' : Pools κ} {c : Nat} {k : κ} {f : Pool k → Pool k} {e : Entity}

theorem grown_of_same (hs : t'.capacity? = t.capacity?) : t.Grown c (fun _ => .none) t' :=
  ⟨fun k => by rw [hs]; rfl, fun k => by rw [hs]; exact id⟩

theorem Grown.capacity?_eq {g : κ → Growth} {n : Nat} (h : t.Grown c g t')
    (hn : t.capacity? k = some n) : t'.capacity? k = some ((g k).grow n) := by
  have hr := h.room k
  obtain ⟨m, hm⟩ := Option.isSome_iff_exists.mp (h.kept k (by rw [hn]; rfl))
  rw [hn, hm] at hr
  rw [hm]
  exact congrArg some hr

theorem grown_at {g : Growth} (hk : t'.capacity? k = some (g.grow ((t.capacity? k).getD c)))
    (hne : ∀ k', k' ≠ k → t'.capacity? k' = t.capacity? k') :
    t.Grown c (fun k' => if k' = k then g else .none) t' := by
  constructor
  · intro k'
    by_cases hkk : k' = k
    · subst k'
      rw [if_pos rfl, hk]
      rfl
    · rw [if_neg hkk, hne k' hkk]
      rfl
  · intro k'
    by_cases hkk : k' = k
    · subst k'
      rw [hk]
      exact fun _ => rfl
    · rw [hne k' hkk]
      exact id

theorem Valid.capacity?_mapPools (h : t.Valid) {g : (k : κ) → Pool k → Pool k}
    (hg : ∀ {k p}, p.Valid → (g k p).Valid) (hc : ∀ k p, (g k p).capacity = p.capacity) :
    (t.mapPools g).capacity? = t.capacity? := by
  funext k
  rw [capacity?, capacity?, h.get?_mapPools hg, Option.map_map]
  exact congrArg (fun m => (t.get? k).map m) (funext (hc k))

theorem Valid.capacity?_modify (h : t.Valid) (hf : ∀ p, p.Valid → (f p).Valid)
    (hc : ∀ p, (f p).capacity = p.capacity) : (t.modify k f).capacity? = t.capacity? := by
  rw [h.modify_eq]
  apply h.capacity?_mapPools fun hp => valid_onKind hf hp
  intro k' p
  by_cases hk : k' = k
  · subst k'
    rw [onKind_self, hc]
  · rw [onKind_of_ne hk]

theorem Valid.capacity?_eraseEntity (h : t.Valid) (e : Entity) :
    (t.eraseEntity e).capacity? = t.capacity? :=
  h.capacity?_mapPools (g := fun _ p => p.erase e) (fun hp => hp.erase e)
    fun _ p => p.capacity_erase e

theorem Valid.capacity?_foldl_eraseEntity (h : t.Valid) (es : List Entity) :
    (es.foldl (·.eraseEntity ·) t).capacity? = t.capacity? := by
  induction es generalizing t with
  | nil => rfl
  | cons e es ih => exact (ih (h.eraseEntity e)).trans (h.capacity?_eraseEntity e)

theorem Valid.capacity?_clear (h : t.Valid) : t.clear.capacity? = t.capacity? :=
  h.capacity?_mapPools (g := fun _ p => p.clear) (fun _ => Pool.valid_clear _) fun _ _ => rfl

theorem Valid.capacity?_deleteAll (h : t.Valid) (e : Entity) (q : List κ) :
    (t.deleteAll e q).2.capacity? = t.capacity? := by
  rw [deleteAll_snd]
  induction q generalizing t with
  | nil => rfl
  | cons k q ih =>
    have hf : ∀ p : Pool k, p.Valid → (p.erase e).Valid := fun p hp => hp.erase e
    exact (ih (h.modify hf)).trans (h.capacity?_modify hf fun p => p.capacity_erase e)

theorem Valid.capacity?_clearAll (h : t.Valid) (q : List κ) :
    (t.clearAll q).capacity? = t.capacity? := by
  rw [Pools.clearAll]
  induction q generalizing t with
  | nil => rfl
  | cons k q ih =>
    have hf : ∀ p : Pool k, p.Valid → p.clear.Valid := fun p _ => Pool.valid_clear p
    exact (ih (h.modify hf)).trans (h.capacity?_modify hf fun _ => rfl)

theorem Valid.capacity?_store (h : t.Valid) (e : Entity) {q : List κ} (row : Row Value q) :
    (t.store e row).capacity? = t.capacity? := by
  induction row generalizing t with
  | nil => rfl
  | @cons k q value rest ih =>
    have hf : ∀ p : Pool k, p.Valid → (p.modify e fun _ => value).Valid :=
      fun p hp => hp.modify e _
    exact (ih (h.modify hf)).trans (h.capacity?_modify hf fun p => p.capacity_modify e _)

theorem Valid.capacity?_storeRows (h : t.Valid) {q : List κ} (ys : List (Entity × Row Value q)) :
    (t.storeRows ys).capacity? = t.capacity? := by
  induction ys generalizing t with
  | nil => rfl
  | cons y ys ih => exact (ih (h.store y.1 y.2)).trans (h.capacity?_store y.1 y.2)

theorem Valid.capacity?_replace (h : t.Valid) {absent : Except Failure (Value k)} (e : Entity)
    (x : Value k) : (t.update k absent (·.replace e x)).2.capacity? = t.capacity? := by
  cases hp : t.get? k with
  | none => rw [update_of_none hp]
  | some p =>
    have hm : (t.modify k fun _ => (p.replace e x).2) = t.modify k fun q => (q.replace e x).2 :=
      h.modify_congr hp rfl
    rw [h.update_of_some hp, hm]
    exact h.capacity?_modify (fun q hq => hq.replace e x) fun q => q.capacity_replace e x

theorem Valid.get?_ensure_of_ne (h : t.Valid) {k' : κ} (hk : k' ≠ k) :
    (t.ensure k c).state.get? k' = t.get? k' := by
  rcases t.ensure_cases k c with ⟨-, he⟩ | ⟨-, cause, -, he⟩ | ⟨hn, -, he⟩
  · rw [he]
  · rw [he]
  · rw [he]
    exact get?_push_of_ne h hn (valid_fresh k c) hk

theorem Valid.capacity_target (h : t.Valid) (hg : (t.ensure k c).result = .ok ()) :
    (t.target k c).capacity = (t.capacity? k).getD c := by
  rw [Pools.target, capacity?]
  cases hp : t.get? k with
  | some p => rfl
  | none =>
    rw [h.get?_eq_none_iff] at hp
    rcases t.ensure_cases k c with ⟨hc, -⟩ | ⟨-, cause, -, he⟩ | ⟨-, hok, -⟩
    · rw [hp] at hc
      cases hc
    · rw [he] at hg
      cases hg
    · exact (Pool.fresh_of_granted hok).2.2.2

theorem Valid.grown_updateOrCreate (h : t.Valid) {op : Pool k → Except Failure Unit × Pool k}
    {n : Nat} (hop : ∀ p, p.Valid → (op p).2.Valid)
    (hc : ∀ p, p.Valid → (op p).2.capacity = (Growth.ofAnswer n (op p).1).grow p.capacity) :
    t.Grown c (fun k' => if k' = k then .ofAnswer n (t.updateOrCreate k c op).result else .none)
      (t.updateOrCreate k c op).state := by
  cases hg : (t.ensure k c).result with
  | error cause =>
    rw [(updateOrCreate_of_refused hg).2, Growth.ofAnswer_error (updateOrCreate_of_refused hg).1]
    simp only [ite_self]
    exact grown_of_same rfl
  | ok =>
    have hv := h.ensure k c
    have ht := h.target k c
    have hf : ∀ p : Pool k, p.Valid → (op (t.target k c)).2.Valid := fun _ _ => hop _ ht
    rw [(h.updateOrCreate_of_granted hg).1, (h.updateOrCreate_of_granted hg).2]
    apply grown_at
    · rw [capacity?, hv.get?_modify_self hf, h.get?_ensure_self hg, ← h.capacity_target hg]
      exact congrArg some (hc _ ht)
    · intro k' hk
      rw [capacity?, hv.get?_modify_of_ne hf hk, h.get?_ensure_of_ne hk, capacity?]

theorem Valid.grown_write (h : t.Valid) (hl : slotLimit ≤ valueLimit k) (w : Pool.Write k) :
    t.Grown c
      (fun k' => if k' = k then ((t.get? k).map w.growth).getD .none else .none)
      (t.modify k w.run) := by
  have hf : ∀ p : Pool k, p.Valid → (w.run p).Valid := fun p hp => hp.write w
  have hne (k' : κ) (hk : k' ≠ k) : (t.modify k w.run).capacity? k' = t.capacity? k' := by
    rw [capacity?, h.get?_modify_of_ne hf hk, capacity?]
  cases hp : t.get? k with
  | none =>
    have hs : (t.modify k w.run).capacity? = t.capacity? := by
      funext k'
      by_cases hk : k' = k
      · subst k'
        rw [capacity?, h.get?_modify_self hf, capacity?, hp]
        rfl
      · exact hne k' hk
    simp only [Option.map_none, Option.getD_none, ite_self]
    exact grown_of_same hs
  | some p =>
    apply grown_at _ hne
    rw [capacity?, h.get?_modify_self hf, capacity?, hp]
    exact congrArg some ((h.pool hp).capacity_write hl w)

theorem Valid.pairs_ensure (h : t.Valid) (k : κ) (c : Nat) :
    (t.ensure k c).state.pairs = t.pairs := by
  funext k'
  rcases t.ensure_cases k c with ⟨-, he⟩ | ⟨-, cause, -, he⟩ | ⟨hn, -, he⟩
  · rw [he]
  · rw [he]
  · rw [he, pairs, pairs]
    by_cases hk : k' = k
    · subst k'
      rw [h.get?_push_self hn (valid_fresh k c), h.get?_eq_none_iff.mpr hn]
      exact Pool.pairs_reserve Pool.empty c
    · rw [get?_push_of_ne h hn (valid_fresh k c) hk]

theorem Valid.pairs_modify (h : t.Valid) (hf : ∀ p, p.Valid → (f p).Valid)
    (hs : ∀ p, t.get? k = some p → (f p).pairs = p.pairs) :
    (t.modify k f).pairs = t.pairs := by
  funext k'
  rw [pairs, pairs]
  by_cases hk : k' = k
  · subst k'
    rw [h.get?_modify_self hf]
    cases hp : t.get? k with
    | none => rfl
    | some p => exact hs p hp
  · rw [h.get?_modify_of_ne hf hk]

theorem Valid.pairs_reserve (h : t.Valid) (k : κ) (c n : Nat) :
    (t.updateOrCreate k c (·.reserve n)).state.pairs = t.pairs := by
  cases hg : (t.ensure k c).result with
  | error cause => rw [(updateOrCreate_of_refused hg).2]
  | ok =>
    rw [(h.updateOrCreate_of_granted hg).2, ← h.pairs_ensure k c]
    apply (h.ensure k c).pairs_modify fun _ _ => (h.target k c).reserve n
    intro p hp
    cases hp.symm.trans (h.get?_ensure_self hg)
    exact Pool.pairs_reserve _ n

theorem Valid.value?_eq_lookup (h : t.Valid) (e : Entity) (k : κ) :
    t.value? e k = (t.pairs k).lookup e := by
  rw [value?, pairs]
  cases hp : t.get? k with
  | none => rfl
  | some p => exact (h.pool hp).get?_eq_lookup e

end Pools

end TickWorld
