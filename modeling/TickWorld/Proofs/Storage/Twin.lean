import Mathlib.Data.List.Forall2
import TickWorld.Proofs.Storage.PairList
import TickWorld.Proofs.Storage.Visit

namespace TickWorld

open ComponentKind (name)

/-- Two outcomes with the same answer, the same events and states that are related. -/
structure Outcome.Agree {σ τ α : Type} (R : σ → τ → Prop) (o : Outcome σ α) (o' : Outcome τ α) :
    Prop where
  result : o.result = o'.result
  state : R o.state o'.state
  events : o.events = o'.events

namespace SparseSet

variable {α : Type} [DecidableEq α] [SparseIndex α]

/-- Two valid sets with the same values in the same order and the same capacity. -/
structure Twin (s s' : SparseSet α) : Prop where
  left : s.Valid
  right : s'.Valid
  listing : s.listing = s'.listing

variable {s s' : SparseSet α} {v : α} {n : Nat}

omit [DecidableEq α] in
theorem Valid.twin (h : s.Valid) : s.Twin s := ⟨h, h, rfl⟩

namespace Twin

omit [DecidableEq α] in
theorem toList (h : s.Twin s') : s.toList = s'.toList := congrArg Listing.values h.listing

omit [DecidableEq α] in
theorem capacity (h : s.Twin s') : s.capacity = s'.capacity := congrArg Listing.capacity h.listing

omit [DecidableEq α] in
theorem dense (h : s.Twin s') : s.dense = s'.dense := Array.toList_inj.mp h.toList

theorem has (h : s.Twin s') (v : α) : s.has v = s'.has v := by
  rw [h.left.shows.has, h.right.shows.has, h.listing]

omit [DecidableEq α] in
theorem size (h : s.Twin s') : s.size = s'.size := congrArg Array.size h.dense

omit [DecidableEq α] in
theorem first? (h : s.Twin s') : s.first? = s'.first? := congrArg (·[0]?) h.dense

theorem call (h : s.Twin s') (c : Call α) :
    (c.perform s).1 = (c.perform s').1 ∧ (c.perform s).2.Twin (c.perform s').2 := by
  obtain ⟨ha, ho⟩ := refines_listing.congr h.left h.right h.listing c
  exact ⟨ha, h.left.perform c, h.right.perform c, ho⟩

theorem insert (h : s.Twin s') (v : α) : (s.insert v).Twin (s'.insert v) := by
  have hc := (h.call (.insert v)).2
  rwa [Call.perform_insert_snd, Call.perform_insert_snd] at hc

theorem erase (h : s.Twin s') (v : α) : (s.erase v).Twin (s'.erase v) := by
  have hc := (h.call (.erase v)).2
  rwa [Call.perform_erase_snd, Call.perform_erase_snd] at hc

theorem clear (h : s.Twin s') : s.clear.Twin s'.clear := (h.call .clear).2

omit [DecidableEq α] in
theorem canGrow (h : s.Twin s') (n : Nat) : s.canGrow n = s'.canGrow n := by
  rw [SparseSet.canGrow, SparseSet.canGrow, h.capacity]

omit [DecidableEq α] in
theorem grow (h : s.Twin s') (n : Nat) : (s.grow n).Twin (s'.grow n) := by
  refine ⟨h.left.grow n, h.right.grow n, ?_⟩
  rw [listing_grow, listing_grow, h.listing]

theorem foldl_insert (h : s.Twin s') (vs : List α) :
    (vs.foldl (·.insert ·) s).Twin (vs.foldl (·.insert ·) s') := by
  induction vs generalizing s s' with
  | nil => exact h
  | cons v vs ih => exact ih (h.insert v)

end Twin

theorem Valid.twin_clear {vs : List α} (h : s.Valid) (hv : ∀ v ∈ s.toList, v ∈ vs) :
    s.clear.Twin (vs.foldl (·.erase ·) s) := by
  induction vs generalizing s with
  | nil =>
    refine ⟨s.valid_clear, h, ?_⟩
    have hs : s.toList = [] := List.eq_nil_iff_forall_not_mem.mpr fun v hm => by cases hv v hm
    rw [List.foldl_nil, SparseSet.listing, SparseSet.listing, hs]
    rfl
  | cons v vs ih =>
    have ht := ih (h.erase v) fun w hw => by
      obtain ⟨hm, hne⟩ := h.mem_erase.mp hw
      exact (List.mem_cons.mp (hv w hm)).resolve_left hne
    refine ⟨s.valid_clear, ht.right, ?_⟩
    rw [List.foldl_cons, ← ht.listing]
    exact congrArg (Listing.mk []) (s.capacity_erase v).symm

end SparseSet

variable {κ : Type} [ComponentKind κ] {k : κ}

namespace Pool

/-- Two valid pools with the same pairs in the same order and the same capacity. -/
structure Twin (p p' : Pool k) : Prop where
  left : p.Valid
  right : p'.Valid
  pairList : p.pairList = p'.pairList

variable {p p' : Pool k} {e : Entity}

theorem Valid.twin (h : p.Valid) : p.Twin p := ⟨h, h, rfl⟩

namespace Twin

theorem capacity (h : p.Twin p') : p.capacity = p'.capacity :=
  congrArg PairList.capacity h.pairList

theorem get? (h : p.Twin p') (e : Entity) : p.get? e = p'.get? e := by
  rw [h.left.shows.get?, h.right.shows.get?, h.pairList]

theorem has (h : p.Twin p') (e : Entity) : p.has e = p'.has e := by
  rw [h.left.shows.has, h.right.shows.has, h.pairList]

theorem size (h : p.Twin p') : p.size = p'.size := by
  rw [h.left.shows.size, h.right.shows.size, h.pairList]

theorem call (h : p.Twin p') (c : Call k) :
    (c.perform p).1 = (c.perform p').1 ∧ (c.perform p).2.Twin (c.perform p').2 := by
  obtain ⟨ha, ho⟩ := refines_pairList.congr h.left h.right h.pairList c
  exact ⟨ha, h.left.perform c, h.right.perform c, ho⟩

theorem erase (h : p.Twin p') (e : Entity) : (p.erase e).Twin (p'.erase e) :=
  (h.call (.delete e)).2

theorem clear (h : p.Twin p') : p.clear.Twin p'.clear := (h.call .clear).2

theorem modify (h : p.Twin p') (e : Entity) (f : Value k → Value k) :
    (p.modify e f).Twin (p'.modify e f) :=
  (h.call (.modify e f)).2

end Twin

theorem Valid.foldl_erase {es : List Entity} (h : p.Valid) :
    (es.foldl (·.erase ·) p).Valid ∧
      (es.foldl (·.erase ·) p).owners = es.foldl (·.erase ·) p.owners := by
  induction es generalizing p with
  | nil => exact ⟨h, rfl⟩
  | cons e es ih =>
    rw [List.foldl_cons, List.foldl_cons, ← owners_erase]
    exact ih (h.erase e)

theorem Valid.twin_clear {es : List Entity} (h : p.Valid) (he : ∀ e ∈ p.entities, e ∈ es) :
    p.clear.Twin (es.foldl (·.erase ·) p) := by
  have ht := h.owners.twin_clear he
  obtain ⟨hv, ho⟩ : (es.foldl (·.erase ·) p).Valid ∧
      (es.foldl (·.erase ·) p).owners = es.foldl (·.erase ·) p.owners := h.foldl_erase
  refine ⟨valid_clear p, hv, ?_⟩
  rw [Pool.pairList, Pool.pairList, Pool.pairs, Pool.pairs, Pool.capacity, Pool.capacity, ho,
    ← ht.toList, ← ht.capacity]
  rfl

end Pool

inductive AnyPool.Twin : AnyPool κ → AnyPool κ → Prop where
  | mk {k : κ} {p p' : Pool k} : p.Twin p' → Twin ⟨k, p⟩ ⟨k, p'⟩

def AnyPool.sheet (p : AnyPool κ) : (k : κ) × PairList k := ⟨p.kind, p.pool.pairList⟩

theorem option_rel_getElem? {α β : Type} {R : α → β → Prop} {l : List α} {l' : List β}
    (h : List.Forall₂ R l l') (i : Nat) : Option.Rel R l[i]? l'[i]? := by
  induction h generalizing i with
  | nil => exact .none
  | cons hr _ ih =>
    cases i with
    | zero => exact .some hr
    | succ i => exact ih i

theorem bind_eq_of_rel {α β γ : Type} {R : α → β → Prop} {x : Option α} {x' : Option β}
    (h : Option.Rel R x x') {f : α → Option γ} {f' : β → Option γ}
    (hf : ∀ a b, R a b → f a = f' b) : x.bind f = x'.bind f' := by
  cases h with
  | none => rfl
  | some hr => exact hf _ _ hr

theorem map_eq_of_forall₂ {α β : Type} {R : α → α → Prop} {l l' : List α}
    (h : List.Forall₂ R l l') {f : α → β} (hf : ∀ a b, R a b → f a = f b) :
    l.map f = l'.map f := by
  induction h with
  | nil => rfl
  | cons hr _ ih => rw [List.map_cons, List.map_cons, hf _ _ hr, ih]

variable [DecidableEq κ]

namespace Pools

def sheets (t : Pools κ) : List ((k : κ) × PairList k) := t.pools.toList.map AnyPool.sheet

/-- Two valid tables with twins of the same kinds in the same order. -/
structure Twin (t t' : Pools κ) : Prop where
  left : t.Valid
  right : t'.Valid
  pools : List.Forall₂ AnyPool.Twin t.pools.toList t'.pools.toList

variable {t t' : Pools κ} {e : Entity} {q : List κ}

theorem Valid.twin (h : t.Valid) : t.Twin t := by
  refine ⟨h, h, List.forall₂_same.mpr ?_⟩
  rintro ⟨k, p⟩ hp
  exact .mk (h.pool (h.get?_of_mem (Array.mem_toList_iff.mp hp))).twin

namespace Twin

theorem getElem? (h : t.Twin t') (i : Nat) :
    Option.Rel AnyPool.Twin t.pools[i]? t'.pools[i]? := by
  rw [← Array.getElem?_toList, ← Array.getElem?_toList]
  exact option_rel_getElem? h.pools i

theorem sheets (h : t.Twin t') : t.sheets = t'.sheets := by
  apply map_eq_of_forall₂ h.pools
  rintro _ _ ⟨hp⟩
  exact congrArg (Sigma.mk _) hp.pairList

theorem slot? (h : t.Twin t') (k : κ) : t.slot? k = t'.slot? k := by
  ext i
  have hr := h.getElem? i
  rw [h.left.slot?_iff, h.right.slot?_iff]
  generalize t.pools[i]? = x at hr ⊢
  generalize t'.pools[i]? = x' at hr ⊢
  cases hr with
  | none => simp
  | some hp =>
    obtain ⟨hp⟩ := hp
    constructor
    · rintro ⟨p, hx⟩
      cases hx
      exact ⟨_, rfl⟩
    · rintro ⟨p, hx⟩
      cases hx
      exact ⟨_, rfl⟩

theorem get? (h : t.Twin t') (k : κ) : Option.Rel Pool.Twin (t.get? k) (t'.get? k) := by
  rw [Pools.get?, Pools.get?, ← h.slot?]
  cases t.slot? k with
  | none => exact .none
  | some i =>
    have hr := h.getElem? i
    simp only
    generalize t.pools[i]? = x at hr ⊢
    generalize t'.pools[i]? = x' at hr ⊢
    cases hr with
    | none => exact .none
    | some hp =>
      obtain @⟨k', p, p', hp⟩ := hp
      by_cases hk : k' = k
      · subst k'
        simp only [AnyPool.cast?_self]
        exact .some hp
      · simp only [AnyPool.cast?, hk, dite_false]
        exact .none

theorem contains (h : t.Twin t') (k : κ) : t.contains k = t'.contains k := by
  rw [Pools.contains, Pools.contains, h.slot?]

theorem size (h : t.Twin t') : t.size = t'.size := by
  rw [Pools.size, Pools.size, ← Array.length_toList, ← Array.length_toList]
  exact h.pools.length_eq

theorem value? (h : t.Twin t') (e : Entity) (k : κ) : t.value? e k = t'.value? e k :=
  bind_eq_of_rel (h.get? k) fun _ _ hp => hp.get? e

theorem owns (h : t.Twin t') : t.owns = t'.owns := by
  funext e k
  rw [← h.left.isSome_value?, ← h.right.isSome_value?, h.value?]

theorem ownsAll (h : t.Twin t') : t.ownsAll = t'.ownsAll := by
  funext e q
  rw [Pools.ownsAll, Pools.ownsAll, missing?, missing?, h.owns]

theorem has (h : t.Twin t') (e : Entity) :
    t.pools.toList.map (fun p => (p.has e, name p.kind)) =
      t'.pools.toList.map fun p => (p.has e, name p.kind) := by
  apply map_eq_of_forall₂ h.pools
  rintro _ _ ⟨hp⟩
  exact congrArg (·, _) (hp.has e)

theorem countOwned (h : t.Twin t') (e : Entity) : t.countOwned e = t'.countOwned e := by
  have hc := congrArg (List.countP Prod.fst) (h.has e)
  rwa [List.countP_map, List.countP_map, Array.countP_toList, Array.countP_toList] at hc

theorem namesOwned (h : t.Twin t') (e : Entity) : t.namesOwned e = t'.namesOwned e := by
  have hn := congrArg (fun l => (l.filter Prod.fst).map Prod.snd) (h.has e)
  simp only [List.filter_map, List.map_map] at hn
  exact hn

theorem census (h : t.Twin t') : t.census = t'.census := by
  apply map_eq_of_forall₂ h.pools
  rintro _ _ ⟨hp⟩
  exact congrArg (name _, ·) hp.size

theorem claim (h : t.Twin t') (taken q : List κ) : t.claim taken q = t'.claim taken q := by
  induction q generalizing taken with
  | nil => rfl
  | cons k q ih => rw [Pools.claim, Pools.claim, h.contains, ih]

theorem fetch (h : t.Twin t') (e : Entity) (q : List κ) : t.fetch e q = t'.fetch e q :=
  fetch_congr fun k _ => h.value? e k

variable {g g' : (k : κ) → Pool k → Pool k} {f f' : Pool k → Pool k}

theorem mapPools (h : t.Twin t')
    (hg : ∀ {k} {p p' : Pool k}, p.Twin p' → (g k p).Twin (g' k p')) :
    (t.mapPools g).Twin (t'.mapPools g') where
  left := h.left.mapPools fun hp => (hg hp.twin).left
  right := h.right.mapPools fun hp => (hg hp.twin).right
  pools := by
    rw [Pools.mapPools, Pools.mapPools, Array.toList_map, Array.toList_map,
      List.forall₂_map_left_iff, List.forall₂_map_right_iff]
    apply h.pools.imp
    rintro _ _ ⟨hp⟩
    exact .mk (hg hp)

theorem modify (h : t.Twin t') (hf : ∀ {p p' : Pool k}, p.Twin p' → (f p).Twin (f' p')) :
    (t.modify k f).Twin (t'.modify k f') := by
  rw [h.left.modify_eq, h.right.modify_eq]
  apply h.mapPools
  intro k' p p' hp
  by_cases hk : k' = k
  · subst k'
    rw [onKind_self, onKind_self]
    exact hf hp
  · rw [onKind_of_ne hk, onKind_of_ne hk]
    exact hp

theorem write (h : t.Twin t') (k : κ) (e : Entity) (f : Value k → Value k) :
    (t.modify k (·.modify e f)).Twin (t'.modify k (·.modify e f)) :=
  h.modify fun hp => hp.modify e f

theorem eraseEntity (h : t.Twin t') (e : Entity) : (t.eraseEntity e).Twin (t'.eraseEntity e) :=
  h.mapPools fun {_ p p'} (hp : p.Twin p') => hp.erase e

theorem clear (h : t.Twin t') : t.clear.Twin t'.clear :=
  h.mapPools fun {_ p p'} (hp : p.Twin p') => hp.clear

theorem clearAll (h : t.Twin t') (q : List κ) : (t.clearAll q).Twin (t'.clearAll q) := by
  rw [Pools.clearAll, Pools.clearAll]
  induction q generalizing t t' with
  | nil => exact h
  | cons k q ih => exact ih (h.modify fun hp => hp.clear)

theorem deleteAll (h : t.Twin t') (e : Entity) (q : List κ) :
    (t.deleteAll e q).1 = (t'.deleteAll e q).1 ∧ (t.deleteAll e q).2.Twin (t'.deleteAll e q).2 := by
  rw [Pools.deleteAll, Pools.deleteAll]
  generalize 0 = n
  induction q generalizing t t' n with
  | nil => exact ⟨rfl, h⟩
  | cons k q ih =>
    simp only [List.foldl_cons, h.owns]
    exact ih (h.modify fun hp => hp.erase e) _

theorem store (h : t.Twin t') (e : Entity) (row : Row Value q) :
    (t.store e row).Twin (t'.store e row) := by
  induction row generalizing t t' with
  | nil => exact h
  | cons value rest ih => exact ih (h.write _ e _)

theorem foldl_visit {σ : Type} (f : σ → Entity → Row Value q → σ × Row Value q) (h : t.Twin t')
    (es : List Entity) (n : Nat) (s : σ) :
    (es.foldl (visit q f) (n, s, t)).1 = (es.foldl (visit q f) (n, s, t')).1 ∧
    (es.foldl (visit q f) (n, s, t)).2.1 = (es.foldl (visit q f) (n, s, t')).2.1 ∧
    (es.foldl (visit q f) (n, s, t)).2.2.Twin (es.foldl (visit q f) (n, s, t')).2.2 := by
  induction es generalizing n s t t' with
  | nil => exact ⟨rfl, rfl, h⟩
  | cons e es ih =>
    rw [List.foldl_cons, List.foldl_cons, visit, visit, ← h.fetch]
    cases t.fetch e q with
    | error cause => exact ih h n s
    | ok row => exact ih (h.store e _) _ _

theorem push (h : t.Twin t') {p p' : Pool k} (hc : t.contains k = false) (hp : p.Twin p') :
    (t.push k p).Twin (t'.push k p') where
  left := h.left.push hc hp.left
  right := h.right.push (h.contains k ▸ hc) hp.right
  pools := by
    rw [Pools.push, Pools.push, Array.toList_push, Array.toList_push]
    exact List.rel_append h.pools (.cons (.mk hp) .nil)

theorem ensure (h : t.Twin t') (k : κ) (capacity : Nat) :
    Outcome.Agree Twin (t.ensure k capacity) (t'.ensure k capacity) := by
  rw [Pools.ensure, Pools.ensure, ← h.contains]
  split
  · exact ⟨rfl, h, rfl⟩
  · rename_i hc
    have hs : t.pools.size = t'.pools.size := h.size
    have hp : ((Pool.empty : Pool k).reserve capacity).2.Valid := valid_fresh k capacity
    rw [create, create, ← hs]
    generalize (Pool.empty : Pool k).reserve capacity = made at hp ⊢
    obtain ⟨result, p⟩ := made
    cases result with
    | error cause => exact ⟨rfl, h, rfl⟩
    | ok =>
      have ht := h.push (Bool.not_eq_true _ ▸ hc) (Pool.Valid.twin hp)
      rw [Pools.push, Pools.push, ← hs] at ht
      exact ⟨rfl, ht, rfl⟩

section

variable {ρ : Type}

theorem update (h : t.Twin t') (absent : ρ) {op : Pool k → ρ × Pool k}
    (hop : ∀ {p p' : Pool k}, p.Twin p' → (op p).1 = (op p').1 ∧ (op p).2.Twin (op p').2) :
    (t.update k absent op).1 = (t'.update k absent op).1 ∧
      (t.update k absent op).2.Twin (t'.update k absent op).2 := by
  have hr := h.get? k
  cases hp : t.get? k with
  | none =>
    cases hp' : t'.get? k with
    | none =>
      rw [update_of_none hp, update_of_none hp']
      exact ⟨rfl, h⟩
    | some p' =>
      rw [hp, hp'] at hr
      cases hr
  | some p =>
    cases hp' : t'.get? k with
    | none =>
      rw [hp, hp'] at hr
      cases hr
    | some p' =>
      rw [hp, hp'] at hr
      cases hr with
      | some ht =>
        rw [h.left.update_of_some hp, h.right.update_of_some hp']
        exact ⟨(hop ht).1, h.modify fun _ => (hop ht).2⟩

theorem updateOrCreate (h : t.Twin t') (k : κ) (capacity : Nat)
    {op : Pool k → Except Failure ρ × Pool k}
    (hop : ∀ {p p' : Pool k}, p.Twin p' → (op p).1 = (op p').1 ∧ (op p).2.Twin (op p').2) :
    Outcome.Agree Twin (t.updateOrCreate k capacity op) (t'.updateOrCreate k capacity op) := by
  have he := h.ensure k capacity
  rw [Pools.updateOrCreate, Pools.updateOrCreate]
  generalize t.ensure k capacity = o at he ⊢
  generalize t'.ensure k capacity = o' at he ⊢
  obtain ⟨result, state, events⟩ := o
  obtain ⟨result', state', events'⟩ := o'
  obtain ⟨hresult, hstate, hevents⟩ := he
  simp only at hresult hstate hevents
  subst hresult hevents
  cases result with
  | error cause => exact ⟨rfl, hstate, rfl⟩
  | ok =>
    obtain ⟨hr, ht⟩ := hstate.update (.error (.unregisteredComponent (name k))) hop
    exact ⟨hr, ht, rfl⟩

end

end Twin

end Pools

end TickWorld
