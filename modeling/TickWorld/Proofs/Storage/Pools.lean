import TickWorld.Proofs.Storage.Pool
import TickWorld.Storage.Pools

namespace TickWorld

open ComponentKind (name)

variable {κ : Type} [DecidableEq κ] [ComponentKind κ]

theorem AnyPool.cast?_eq_some_iff {p : AnyPool κ} {k : κ} {q : Pool k} :
    p.cast? k = some q ↔ p = ⟨k, q⟩ := by
  obtain ⟨kind, pool⟩ := p
  simp only [cast?]
  constructor
  · intro h
    split at h
    · rename_i hk
      cases hk
      cases h
      rfl
    · cases h
  · intro h
    cases h
    simp

@[simp] theorem AnyPool.cast?_self {k : κ} (p : Pool k) : (⟨k, p⟩ : AnyPool κ).cast? k = some p :=
  cast?_eq_some_iff.mpr rfl

namespace Pools

/-- The slot of a kind holds a pool of that kind, every pool stands in the slot of its kind, and
every pool is valid. -/
structure Valid (t : Pools κ) : Prop where
  slot?_iff : ∀ {k : κ} {slot : Nat},
    t.slot? k = some slot ↔ ∃ p : Pool k, t.pools[slot]? = some ⟨k, p⟩
  pools : ∀ {slot : Nat} {k : κ} {p : Pool k}, t.pools[slot]? = some ⟨k, p⟩ → p.Valid

/-- The component of kind `k` that is stored for an entity, alive or not. -/
def value? (t : Pools κ) (e : Entity) (k : κ) : Option (Value k) :=
  (t.get? k).bind (·.get? e)

variable {t t' : Pools κ} {k k' : κ} {p : Pool k} {e e' : Entity} {slot capacity : Nat}

theorem valid_empty : (empty : Pools κ).Valid :=
  ⟨by simp [slot?, empty], by simp [empty]⟩

theorem Valid.get?_eq_some_iff (h : t.Valid) :
    t.get? k = some p ↔ ∃ slot : Nat, t.pools[slot]? = some ⟨k, p⟩ := by
  simp only [get?]
  constructor
  · intro hp
    split at hp
    · cases hp
    · split at hp
      · cases hp
      · rename_i slot hs _ q hq
        rw [AnyPool.cast?_eq_some_iff] at hp
        exact ⟨slot, hp ▸ hq⟩
  · intro hx
    obtain ⟨slot, hp⟩ := hx
    rw [h.slot?_iff.mpr ⟨p, hp⟩]
    simp [hp]

theorem Valid.pool (h : t.Valid) (hp : t.get? k = some p) : p.Valid := by
  obtain ⟨slot, hs⟩ := h.get?_eq_some_iff.mp hp
  exact h.pools hs

theorem Valid.get?_of_mem (h : t.Valid) {p : AnyPool κ} (hp : p ∈ t.pools) :
    t.get? p.kind = some p.pool := by
  rw [h.get?_eq_some_iff]
  exact Array.mem_iff_getElem?.mp hp

theorem Valid.contains_eq (h : t.Valid) (k : κ) : t.contains k = (t.get? k).isSome := by
  rw [Bool.eq_iff_iff, contains, Option.isSome_iff_exists, Option.isSome_iff_exists]
  constructor
  · intro hx
    obtain ⟨slot, hs⟩ := hx
    obtain ⟨p, hp⟩ := h.slot?_iff.mp hs
    exact ⟨p, h.get?_eq_some_iff.mpr ⟨slot, hp⟩⟩
  · intro hx
    obtain ⟨p, hp⟩ := hx
    obtain ⟨slot, hs⟩ := h.get?_eq_some_iff.mp hp
    exact ⟨slot, h.slot?_iff.mpr ⟨p, hs⟩⟩

theorem Valid.get?_eq_none_iff (h : t.Valid) : t.get? k = none ↔ t.contains k = false := by
  rw [h.contains_eq, Option.isSome_eq_false_iff, Option.isNone_iff_eq_none]

theorem Valid.isSome_value? (h : t.Valid) (e : Entity) (k : κ) :
    (t.value? e k).isSome = t.owns e k := by
  simp only [value?, owns]
  cases hp : t.get? k with
  | none => rfl
  | some p => exact (h.pool hp).isSome_get? e

theorem Valid.owns_eq_false_iff (h : t.Valid) : t.owns e k = false ↔ t.value? e k = none := by
  rw [← h.isSome_value?, Option.isSome_eq_false_iff, Option.isNone_iff_eq_none]

theorem Valid.has_of_mem (h : t.Valid) {p : AnyPool κ} (hp : p ∈ t.pools) (e : Entity) :
    p.has e = t.owns e p.kind := by
  rw [owns, h.get?_of_mem hp, AnyPool.has]

section

omit [DecidableEq κ]

def mapPools (t : Pools κ) (g : (k : κ) → Pool k → Pool k) : Pools κ :=
  { t with pools := t.pools.map fun p => ⟨p.kind, g p.kind p.pool⟩ }

theorem getElem?_mapPools (g : (k : κ) → Pool k → Pool k) {q : Pool k} :
    (t.mapPools g).pools[slot]? = some ⟨k, q⟩ ↔
      ∃ p, t.pools[slot]? = some ⟨k, p⟩ ∧ q = g k p := by
  simp only [mapPools, Array.getElem?_map, Option.map_eq_some_iff]
  constructor
  · intro hx
    obtain ⟨⟨kind, p⟩, hp, he⟩ := hx
    cases he
    exact ⟨p, hp, rfl⟩
  · intro hx
    obtain ⟨p, hp, rfl⟩ := hx
    exact ⟨_, hp, rfl⟩

end

variable {g : (k : κ) → Pool k → Pool k} {f : Pool k → Pool k}

theorem Valid.mapPools (h : t.Valid) (hg : ∀ {k p}, p.Valid → (g k p).Valid) :
    (t.mapPools g).Valid := by
  refine ⟨fun {k slot} => ?_, fun {slot k q} hq => ?_⟩
  · simp only [getElem?_mapPools]
    refine h.slot?_iff.trans ⟨?_, ?_⟩
    · intro hx
      obtain ⟨p, hp⟩ := hx
      exact ⟨_, p, hp, rfl⟩
    · intro hx
      obtain ⟨_, p, hp, -⟩ := hx
      exact ⟨p, hp⟩
  · obtain ⟨p, hp, rfl⟩ := (getElem?_mapPools g).mp hq
    exact hg (h.pools hp)

theorem Valid.get?_mapPools (h : t.Valid) (hg : ∀ {k p}, p.Valid → (g k p).Valid) (k : κ) :
    (t.mapPools g).get? k = (t.get? k).map (g k) := by
  ext q
  rw [(h.mapPools hg).get?_eq_some_iff, Option.map_eq_some_iff]
  simp only [getElem?_mapPools, h.get?_eq_some_iff]
  constructor
  · intro hx
    obtain ⟨slot, p, hp, rfl⟩ := hx
    exact ⟨p, ⟨slot, hp⟩, rfl⟩
  · intro hx
    obtain ⟨p, ⟨slot, hp⟩, rfl⟩ := hx
    exact ⟨slot, p, hp, rfl⟩

def onKind (k : κ) (f : Pool k → Pool k) (k' : κ) (p : Pool k') : Pool k' :=
  if h : k' = k then h ▸ f (h ▸ p) else p

@[simp] theorem onKind_self (f : Pool k → Pool k) (p : Pool k) : onKind k f k p = f p := by
  simp [onKind]

theorem onKind_of_ne (hk : k' ≠ k) (f : Pool k → Pool k) (p : Pool k') :
    onKind k f k' p = p := by
  simp [onKind, hk]

theorem valid_onKind (hf : ∀ p, p.Valid → (f p).Valid) {q : Pool k'} (hq : q.Valid) :
    (onKind k f k' q).Valid := by
  by_cases hk : k' = k
  · subst k'
    rw [onKind_self]
    exact hf q hq
  · rw [onKind_of_ne hk]
    exact hq

/-- No other slot holds a pool of the kind, so changing the pool in the slot of the kind is
changing every pool of the kind. -/
theorem Valid.modify_eq (h : t.Valid) (k : κ) (f : Pool k → Pool k) :
    t.modify k f = t.mapPools (onKind k f) := by
  have hother {i : Nat} {q : AnyPool κ} (hi : t.slot? k ≠ some i) (hq : t.pools[i]? = some q) :
      (⟨q.kind, onKind k f q.kind q.pool⟩ : AnyPool κ) = q := by
    obtain ⟨k', q⟩ := q
    have hk : k' ≠ k := by
      rintro rfl
      exact hi (h.slot?_iff.mpr ⟨q, hq⟩)
    rw [onKind_of_ne hk]
  simp only [modify, Pools.mapPools]
  split
  · rename_i hs
    change Pools.mk t.slots t.pools = _
    congr 1
    apply Array.ext_getElem?
    intro i
    rw [Array.getElem?_map]
    cases hq : t.pools[i]? with
    | none => rfl
    | some q => simp [hother (by simp [hs]) hq]
  · rename_i slot hs
    obtain ⟨p, hp⟩ := h.slot?_iff.mp hs
    congr 1
    apply Array.ext_getElem?
    intro i
    rw [Array.getElem?_map, Array.getElem?_modify]
    by_cases hi : slot = i
    · subst i
      simp [hp]
    · rw [if_neg hi]
      cases hq : t.pools[i]? with
      | none => rfl
      | some q =>
        have hne : t.slot? k ≠ some i := by
          simp [hs, hi]
        simp [hother hne hq]

theorem Valid.modify (h : t.Valid) (hf : ∀ p, p.Valid → (f p).Valid) : (t.modify k f).Valid := by
  rw [h.modify_eq]
  exact h.mapPools fun hp => valid_onKind hf hp

theorem Valid.get?_modify_self (h : t.Valid) (hf : ∀ p, p.Valid → (f p).Valid) :
    (t.modify k f).get? k = (t.get? k).map f := by
  rw [h.modify_eq, h.get?_mapPools fun hp => valid_onKind hf hp]
  congr 1
  funext p
  exact onKind_self f p

theorem Valid.get?_modify_of_ne (h : t.Valid) (hf : ∀ p, p.Valid → (f p).Valid) (hk : k' ≠ k) :
    (t.modify k f).get? k' = t.get? k' := by
  rw [h.modify_eq, h.get?_mapPools fun hp => valid_onKind hf hp]
  have he : onKind k f k' = id := funext fun p => onKind_of_ne hk f p
  rw [he, Option.map_id, id]

theorem Valid.contains_modify (h : t.Valid) (hf : ∀ p, p.Valid → (f p).Valid) (k' : κ) :
    (t.modify k f).contains k' = t.contains k' := by
  rw [(h.modify hf).contains_eq, h.contains_eq]
  by_cases hk : k' = k
  · subst k'
    rw [h.get?_modify_self hf, Option.isSome_map]
  · rw [h.get?_modify_of_ne hf hk]

theorem Valid.value?_modify_self (h : t.Valid) (hf : ∀ p, p.Valid → (f p).Valid) (e : Entity) :
    (t.modify k f).value? e k = (t.get? k).bind fun p => (f p).get? e := by
  rw [value?, h.get?_modify_self hf]
  cases t.get? k <;> rfl

theorem Valid.value?_modify_of_ne (h : t.Valid) (hf : ∀ p, p.Valid → (f p).Valid)
    (hk : k' ≠ k) (e : Entity) : (t.modify k f).value? e k' = t.value? e k' := by
  rw [value?, h.get?_modify_of_ne hf hk, value?]

theorem Valid.modify_congr (h : t.Valid) (hp : t.get? k = some p) {f' : Pool k → Pool k}
    (hf : f p = f' p) : t.modify k f = t.modify k f' := by
  obtain ⟨slot, hs⟩ := h.get?_eq_some_iff.mp hp
  simp only [Pools.modify, h.slot?_iff.mpr ⟨p, hs⟩]
  congr 1
  apply Array.ext_getElem?
  intro i
  rw [Array.getElem?_modify, Array.getElem?_modify]
  by_cases hi : slot = i
  · subst i
    simp [hs, hf]
  · simp [hi]

theorem Valid.modify_self (h : t.Valid) (hp : t.get? k = some p) :
    (t.modify k fun _ => p) = t := by
  obtain ⟨slot, hs⟩ := h.get?_eq_some_iff.mp hp
  simp only [Pools.modify, h.slot?_iff.mpr ⟨p, hs⟩]
  refine congrArg (Pools.mk t.slots) ?_
  apply Array.ext_getElem?
  intro i
  rw [Array.getElem?_modify]
  by_cases hi : slot = i
  · subst i
    simp [hs]
  · simp [hi]

theorem Valid.value?_write (h : t.Valid) (e e' : Entity) (f : Value k → Value k) :
    (t.modify k (·.modify e f)).value? e' k =
      if e' = e then (t.value? e k).map f else t.value? e' k := by
  rw [h.value?_modify_self fun p hp => hp.modify e f]
  cases hp : t.get? k with
  | none => simp [value?, hp]
  | some p => simp [value?, hp, (h.pool hp).get?_modify]

theorem Valid.value?_erase (h : t.Valid) (e e' : Entity) (k k' : κ) :
    (t.modify k (·.erase e)).value? e' k' =
      if e' = e ∧ k' = k then none else t.value? e' k' := by
  have hf : ∀ p : Pool k, p.Valid → (p.erase e).Valid := fun p hp => hp.erase e
  by_cases hk : k' = k
  · subst k'
    rw [h.value?_modify_self hf]
    cases hp : t.get? k with
    | none => simp [value?, hp]
    | some p => simp [value?, hp, (h.pool hp).get?_erase]
  · rw [h.value?_modify_of_ne hf hk, if_neg fun hc => hk hc.2]

theorem Valid.value?_clearKind (h : t.Valid) (e : Entity) (k k' : κ) :
    (t.modify k Pool.clear).value? e k' = if k' = k then none else t.value? e k' := by
  have hf : ∀ p : Pool k, p.Valid → p.clear.Valid := fun p _ => Pool.valid_clear p
  by_cases hk : k' = k
  · subst k'
    rw [h.value?_modify_self hf]
    cases t.get? k <;> simp
  · rw [h.value?_modify_of_ne hf hk, if_neg hk]

theorem Valid.eraseEntity (h : t.Valid) (e : Entity) : (t.eraseEntity e).Valid :=
  h.mapPools (g := fun _ p => p.erase e) fun hp => hp.erase e

theorem Valid.get?_eraseEntity (h : t.Valid) (e : Entity) (k : κ) :
    (t.eraseEntity e).get? k = (t.get? k).map (·.erase e) :=
  h.get?_mapPools (g := fun _ p => p.erase e) (fun hp => hp.erase e) k

theorem Valid.value?_eraseEntity (h : t.Valid) (e e' : Entity) (k : κ) :
    (t.eraseEntity e).value? e' k = if e' = e then none else t.value? e' k := by
  rw [value?, h.get?_eraseEntity]
  cases hp : t.get? k with
  | none => simp [value?, hp]
  | some p => simp [value?, hp, (h.pool hp).get?_erase]

omit [DecidableEq κ] in
theorem foldl_eraseEntity (t : Pools κ) (es : List Entity) :
    es.foldl (·.eraseEntity ·) t = t.mapPools fun _ p => es.foldl (·.erase ·) p := by
  induction es generalizing t with
  | nil => simp [Pools.mapPools]
  | cons e es ih =>
    rw [List.foldl_cons, ih]
    simp only [Pools.mapPools, Pools.eraseEntity, Array.map_map]
    rfl

theorem Valid.clear (h : t.Valid) : t.clear.Valid :=
  h.mapPools (g := fun _ p => p.clear) fun _ => Pool.valid_clear _

theorem Valid.get?_clear (h : t.Valid) (k : κ) : t.clear.get? k = (t.get? k).map Pool.clear :=
  h.get?_mapPools (g := fun _ p => p.clear) (fun _ => Pool.valid_clear _) k

theorem Valid.value?_clear (h : t.Valid) (e : Entity) (k : κ) : t.clear.value? e k = none := by
  rw [value?, h.get?_clear]
  cases t.get? k <;> simp

theorem Valid.update_of_some {ρ : Type} (h : t.Valid) (hp : t.get? k = some p) (absent : ρ)
    (f : Pool k → ρ × Pool k) :
    t.update k absent f = ((f p).1, t.modify k fun _ => (f p).2) := by
  obtain ⟨slot, hs⟩ := h.get?_eq_some_iff.mp hp
  have hslot := h.slot?_iff.mpr ⟨p, hs⟩
  simp only [update, Pools.modify, hslot, hp]
  refine Prod.ext rfl (congrArg (Pools.mk t.slots) ?_)
  apply Array.ext_getElem?
  intro i
  rw [Array.getElem?_modify]
  by_cases hi : slot = i
  · subst i
    obtain ⟨hlt, -⟩ := Array.getElem?_eq_some_iff.mp hs
    rw [if_pos rfl, hs]
    simp [hlt]
  · simp [hi]

theorem update_of_none {ρ : Type} (hp : t.get? k = none) (absent : ρ)
    (f : Pool k → ρ × Pool k) : t.update k absent f = (absent, t) := by
  simp only [update, hp]
  split
  · rename_i he
    cases he
  · rfl

def push (t : Pools κ) (k : κ) (p : Pool k) : Pools κ :=
  ⟨(k, t.pools.size) :: t.slots, t.pools.push ⟨k, p⟩⟩

theorem slot?_push (t : Pools κ) (p : Pool k) (k' : κ) :
    (t.push k p).slot? k' = if k' = k then some t.pools.size else t.slot? k' := by
  by_cases hk : k' = k
  · simp [push, slot?, hk]
  · have hb : (k' == k) = false := by
      simp [hk]
    simp [push, slot?, List.lookup_cons, hk, hb]

theorem Valid.push (h : t.Valid) (hc : t.contains k = false) (hp : p.Valid) :
    (t.push k p).Valid := by
  refine ⟨fun {k' slot} => ?_, fun {slot k' q} hq => ?_⟩
  · rw [slot?_push]
    simp only [Pools.push, Array.getElem?_push]
    by_cases hk : k' = k
    · subst k'
      rw [if_pos rfl, Option.some.injEq]
      constructor
      · rintro rfl
        exact ⟨p, by simp⟩
      · intro hx
        obtain ⟨q, hq⟩ := hx
        by_cases hlast : slot = t.pools.size
        · exact hlast.symm
        · rw [if_neg hlast] at hq
          have hs := h.slot?_iff.mpr ⟨q, hq⟩
          simp [contains, hs] at hc
    · rw [if_neg hk]
      refine h.slot?_iff.trans ⟨?_, ?_⟩
      · intro hx
        obtain ⟨q, hq⟩ := hx
        obtain ⟨hlt, -⟩ := Array.getElem?_eq_some_iff.mp hq
        exact ⟨q, by rw [if_neg (by omega), hq]⟩
      · intro hx
        obtain ⟨q, hq⟩ := hx
        split at hq
        · cases hq
          exact absurd rfl hk
        · exact ⟨q, hq⟩
  · simp only [Pools.push, Array.getElem?_push] at hq
    split at hq
    · cases hq
      exact hp
    · exact h.pools hq

theorem Valid.get?_push_self (h : t.Valid) (hc : t.contains k = false) (hp : p.Valid) :
    (t.push k p).get? k = some p := by
  rw [(h.push hc hp).get?_eq_some_iff]
  exact ⟨t.pools.size, by simp [Pools.push]⟩

theorem get?_push_of_ne (h : t.Valid) (hc : t.contains k = false) (hp : p.Valid)
    (hk : k' ≠ k) : (t.push k p).get? k' = t.get? k' := by
  ext q
  rw [(h.push hc hp).get?_eq_some_iff, h.get?_eq_some_iff]
  simp only [Pools.push, Array.getElem?_push]
  constructor
  · intro hx
    obtain ⟨slot, hq⟩ := hx
    split at hq
    · cases hq
      exact absurd rfl hk
    · exact ⟨slot, hq⟩
  · intro hx
    obtain ⟨slot, hq⟩ := hx
    obtain ⟨hlt, -⟩ := Array.getElem?_eq_some_iff.mp hq
    exact ⟨slot, by rw [if_neg (by omega), hq]⟩

def fresh (k : κ) (capacity : Nat) : Pool k := ((Pool.empty : Pool k).reserve capacity).2

omit [DecidableEq κ] in
theorem valid_fresh (k : κ) (capacity : Nat) : (fresh k capacity).Valid :=
  Pool.valid_empty.reserve capacity

omit [DecidableEq κ] in
@[simp] theorem get?_fresh (k : κ) (capacity : Nat) (e : Entity) :
    (fresh k capacity).get? e = none := by
  rw [fresh, Pool.valid_empty.get?_reserve, Pool.get?_empty]

/-- A kind that has a pool keeps it; a kind that has none gets an empty one, unless the allocator
refuses. -/
theorem ensure_cases (t : Pools κ) (k : κ) (capacity : Nat) :
    (t.contains k = true ∧ t.ensure k capacity = ⟨.ok (), t, #[]⟩) ∨
    (t.contains k = false ∧ ∃ cause, ((Pool.empty : Pool k).reserve capacity).1 = .error cause ∧
      t.ensure k capacity = ⟨.error cause, t, #[]⟩) ∨
    (t.contains k = false ∧ ((Pool.empty : Pool k).reserve capacity).1 = .ok () ∧
      t.ensure k capacity = ⟨.ok (), t.push k (fresh k capacity),
        #[.poolAllocated (name k) t.pools.size capacity]⟩) := by
  cases hc : t.contains k with
  | true => exact .inl ⟨rfl, by simp [ensure, hc]⟩
  | false =>
    refine .inr ?_
    simp only [ensure, hc, create, Bool.false_eq_true, if_false, true_and, fresh, Pools.push]
    cases hr : (Pool.empty : Pool k).reserve capacity with
    | mk result p =>
      cases result with
      | error cause => exact .inl ⟨cause, rfl, rfl⟩
      | ok => exact .inr ⟨rfl, rfl⟩

omit [DecidableEq κ] in
theorem reserve_empty (hs : capacity < slotLimit) (hv : capacity < ComponentKind.valueLimit k) :
    ((Pool.empty : Pool k).reserve capacity).1 = .ok () := by
  have hg : (Pool.empty : Pool k).owners.canGrow capacity = true :=
    SparseSet.canGrow_iff.mpr (.inr hs)
  rw [Pool.reserve_eq, if_pos hg]
  exact if_neg fun hn => Nat.not_lt.mpr hn.2 hv

/-- A kind without a pool can get one if arrays of positions and of its values may be so long. -/
theorem ensure_of_room
    (hr : t.contains k = true ∨ capacity < slotLimit ∧ capacity < ComponentKind.valueLimit k) :
    (t.ensure k capacity).result = .ok () := by
  rcases t.ensure_cases k capacity with ⟨-, he⟩ | ⟨hc, cause, hcause, -⟩ | ⟨-, -, he⟩
  · rw [he]
  · rcases hr with hk | ⟨hs, hv⟩
    · rw [hc] at hk
      cases hk
    · rw [reserve_empty hs hv] at hcause
      cases hcause
  · rw [he]

theorem ensure_eq_error {cause : Failure} (hg : (t.ensure k capacity).result = .error cause) :
    cause = .allocationFailed (name k) capacity := by
  rcases t.ensure_cases k capacity with ⟨-, he⟩ | ⟨-, cause', hr, he⟩ | ⟨-, -, he⟩
  · rw [he] at hg
    cases hg
  · rw [he] at hg
    cases hg
    exact Pool.reserve_eq_error hr
  · rw [he] at hg
    cases hg

theorem Valid.ensure (h : t.Valid) (k : κ) (capacity : Nat) :
    (t.ensure k capacity).state.Valid := by
  rcases t.ensure_cases k capacity with ⟨-, he⟩ | ⟨-, cause, -, he⟩ | ⟨hc, -, he⟩
  · rw [he]
    exact h
  · rw [he]
    exact h
  · rw [he]
    exact h.push hc (valid_fresh k capacity)

theorem Valid.value?_ensure (h : t.Valid) (k : κ) (capacity : Nat) (e : Entity) (k' : κ) :
    (t.ensure k capacity).state.value? e k' = t.value? e k' := by
  rcases t.ensure_cases k capacity with ⟨-, he⟩ | ⟨-, cause, -, he⟩ | ⟨hc, -, he⟩
  · rw [he]
  · rw [he]
  · rw [he, value?, value?]
    by_cases hk : k' = k
    · subst k'
      rw [h.get?_push_self hc (valid_fresh k capacity), h.get?_eq_none_iff.mpr hc]
      simp
    · rw [get?_push_of_ne h hc (valid_fresh k capacity) hk]

/-- The pool that an operation on a kind works on: the one of the kind, or else a new one. -/
def target (t : Pools κ) (k : κ) (capacity : Nat) : Pool k := (t.get? k).getD (fresh k capacity)

theorem Valid.target (h : t.Valid) (k : κ) (capacity : Nat) : (t.target k capacity).Valid := by
  rw [Pools.target]
  cases hp : t.get? k with
  | none => exact valid_fresh k capacity
  | some p => exact h.pool hp

theorem get?_target (t : Pools κ) (e : Entity) (k : κ) (capacity : Nat) :
    (t.target k capacity).get? e = t.value? e k := by
  rw [Pools.target, value?]
  cases t.get? k <;> simp

theorem size_target (t : Pools κ) (k : κ) (capacity : Nat) :
    (t.target k capacity).size = (t.get? k).elim 0 Pool.size := by
  rw [Pools.target]
  cases t.get? k with
  | none =>
    rw [Option.getD_none, fresh, Pool.reserve_eq]
    split <;> rfl
  | some p => rfl

theorem Valid.has_target (h : t.Valid) (e : Entity) (k : κ) (capacity : Nat) :
    (t.target k capacity).has e = (t.value? e k).isSome := by
  rw [← (h.target k capacity).isSome_get?, get?_target]

theorem Valid.get?_ensure_self (h : t.Valid) (hg : (t.ensure k capacity).result = .ok ()) :
    (t.ensure k capacity).state.get? k = some (t.target k capacity) := by
  rw [Pools.target]
  rcases t.ensure_cases k capacity with ⟨hc, he⟩ | ⟨-, cause, -, he⟩ | ⟨hc, -, he⟩
  · rw [h.contains_eq, Option.isSome_iff_exists] at hc
    obtain ⟨p, hp⟩ := hc
    rw [he, hp]
    rfl
  · rw [he] at hg
    cases hg
  · rw [he, h.get?_push_self hc (valid_fresh k capacity), h.get?_eq_none_iff.mpr hc]
    rfl

theorem contains_ensure (hg : (t.ensure k capacity).result = .ok ()) (k' : κ) :
    (t.ensure k capacity).state.contains k' = (decide (k' = k) || t.contains k') := by
  rcases t.ensure_cases k capacity with ⟨hc, he⟩ | ⟨-, cause, -, he⟩ | ⟨-, -, he⟩
  · rw [he]
    by_cases hk : k' = k
    · simp [hk, hc]
    · simp [hk]
  · rw [he] at hg
    cases hg
  · rw [he, contains, slot?_push]
    by_cases hk : k' = k <;> simp [hk, contains]

section

variable {ρ : Type} {op : Pool k → Except Failure ρ × Pool k}

theorem updateOrCreate_of_refused {cause : Failure}
    (hg : (t.ensure k capacity).result = .error cause) :
    (t.updateOrCreate k capacity op).result = .error cause ∧
      (t.updateOrCreate k capacity op).state = t := by
  rcases t.ensure_cases k capacity with ⟨-, he⟩ | ⟨-, cause, -, he⟩ | ⟨-, -, he⟩
  · rw [he] at hg
    cases hg
  · rw [he] at hg
    cases hg
    simp only [updateOrCreate, he, and_self]
  · rw [he] at hg
    cases hg

/-- Otherwise the operation is carried out on the pool of the kind, new or not. -/
theorem Valid.updateOrCreate_of_granted (h : t.Valid)
    (hg : (t.ensure k capacity).result = .ok ()) :
    (t.updateOrCreate k capacity op).result = (op (t.target k capacity)).1 ∧
      (t.updateOrCreate k capacity op).state =
        (t.ensure k capacity).state.modify k fun _ => (op (t.target k capacity)).2 := by
  have hp := h.get?_ensure_self hg
  have hu := (h.ensure k capacity).update_of_some hp (.error (.unregisteredComponent (name k))) op
  rw [updateOrCreate]
  split
  · rename_i he
    rw [he] at hg
    cases hg
  · rename_i he
    rw [he] at hu ⊢
    simp only at hu ⊢
    rw [hu]
    exact ⟨rfl, rfl⟩

theorem Valid.updateOrCreate_same (h : t.Valid) (hc : t.contains k = true)
    (hs : (op (t.target k capacity)).2 = t.target k capacity) :
    (t.updateOrCreate k capacity op).state = t := by
  have he : t.ensure k capacity = ⟨.ok (), t, #[]⟩ := by
    simp [Pools.ensure, hc]
  have hg : (t.ensure k capacity).result = .ok () := by
    rw [he]
  rw [(h.updateOrCreate_of_granted hg).2, hs, (h.ensure k capacity).modify_self
    (h.get?_ensure_self hg), he]

theorem Valid.updateOrCreate (h : t.Valid) (hop : ∀ p, p.Valid → (op p).2.Valid) :
    (t.updateOrCreate k capacity op).state.Valid := by
  cases hg : (t.ensure k capacity).result with
  | error cause =>
    rw [(updateOrCreate_of_refused hg).2]
    exact h
  | ok =>
    rw [(h.updateOrCreate_of_granted hg).2]
    exact (h.ensure k capacity).modify fun _ _ => hop _ (h.target k capacity)

theorem Valid.value?_updateOrCreate_self (h : t.Valid)
    (hg : (t.ensure k capacity).result = .ok ()) (hop : ∀ p, p.Valid → (op p).2.Valid)
    (e : Entity) :
    (t.updateOrCreate k capacity op).state.value? e k = (op (t.target k capacity)).2.get? e := by
  rw [(h.updateOrCreate_of_granted hg).2, (h.ensure k capacity).value?_modify_self
    fun _ _ => hop _ (h.target k capacity), h.get?_ensure_self hg]
  rfl

theorem Valid.value?_updateOrCreate_of_ne (h : t.Valid)
    (hg : (t.ensure k capacity).result = .ok ()) (hop : ∀ p, p.Valid → (op p).2.Valid)
    (hk : k' ≠ k) (e : Entity) :
    (t.updateOrCreate k capacity op).state.value? e k' = t.value? e k' := by
  rw [(h.updateOrCreate_of_granted hg).2, (h.ensure k capacity).value?_modify_of_ne
    (fun _ _ => hop _ (h.target k capacity)) hk, h.value?_ensure]

theorem Valid.value?_updateOrCreate_of_same (h : t.Valid) (hop : ∀ p, p.Valid → (op p).2.Valid)
    (hv : ∀ p, p.Valid → (op p).2.get? e = p.get? e) (k' : κ) :
    (t.updateOrCreate k capacity op).state.value? e k' = t.value? e k' := by
  cases hg : (t.ensure k capacity).result with
  | error cause => rw [(updateOrCreate_of_refused hg).2]
  | ok =>
    by_cases hk : k' = k
    · subst k'
      rw [h.value?_updateOrCreate_self hg hop, hv _ (h.target k capacity), get?_target]
    · rw [h.value?_updateOrCreate_of_ne hg hop hk]

theorem Valid.contains_updateOrCreate (h : t.Valid)
    (hg : (t.ensure k capacity).result = .ok ()) (hop : ∀ p, p.Valid → (op p).2.Valid) (k' : κ) :
    (t.updateOrCreate k capacity op).state.contains k' = (decide (k' = k) || t.contains k') := by
  rw [(h.updateOrCreate_of_granted hg).2, (h.ensure k capacity).contains_modify
    fun _ _ => hop _ (h.target k capacity), contains_ensure hg]

theorem Valid.value?_update_of_same (h : t.Valid) {absent : ρ} {op : Pool k → ρ × Pool k}
    (hop : ∀ p, p.Valid → (op p).2.Valid) (hv : ∀ p, p.Valid → (op p).2.get? e = p.get? e)
    (k' : κ) : (t.update k absent op).2.value? e k' = t.value? e k' := by
  cases hp : t.get? k with
  | none => rw [update_of_none hp]
  | some p =>
    have hf : ∀ q : Pool k, q.Valid → ((op p).2).Valid := fun _ _ => hop p (h.pool hp)
    rw [h.update_of_some hp]
    by_cases hk : k' = k
    · subst k'
      rw [h.value?_modify_self hf, value?, hp, Option.bind_some, Option.bind_some,
        hv p (h.pool hp)]
    · rw [h.value?_modify_of_ne hf hk]

theorem Valid.update (h : t.Valid) {absent : ρ} {op : Pool k → ρ × Pool k}
    (hop : ∀ p, p.Valid → (op p).2.Valid) : (t.update k absent op).2.Valid := by
  cases hp : t.get? k with
  | none =>
    rw [update_of_none hp]
    exact h
  | some p =>
    rw [h.update_of_some hp]
    exact h.modify fun _ _ => hop p (h.pool hp)

end

end Pools

end TickWorld
