import Mathlib.Data.List.Nodup
import TickWorld.Proofs.Storage.Rows

namespace TickWorld

open ComponentKind (name)

variable {κ : Type} [ComponentKind κ]

namespace Pools

def kinds (t : Pools κ) : List κ := t.pools.toList.map AnyPool.kind

/-- The pools stand where they stood and keep their entries; those of some kinds are new, and their
slots come after all others. -/
structure Extended (t : Pools κ) (new : List κ) (t' : Pools κ) : Prop where
  kinds : t'.kinds = t.kinds ++ new
  slots : t'.slots = (new.zipIdx t.size).reverse ++ t.slots

variable {t t' t'' : Pools κ} {new new' q : List κ} {k : κ} {e : Entity} {slot capacity : Nat}

theorem length_kinds (t : Pools κ) : t.kinds.length = t.size := by
  simp [kinds, size]

theorem getElem?_kinds : t.kinds[slot]? = some k ↔ ∃ p : Pool k, t.pools[slot]? = some ⟨k, p⟩ := by
  rw [kinds, List.getElem?_map, Option.map_eq_some_iff, Array.getElem?_toList]
  constructor
  · intro hx
    obtain ⟨⟨k', p⟩, hp, rfl⟩ := hx
    exact ⟨p, hp⟩
  · intro hx
    obtain ⟨p, hp⟩ := hx
    exact ⟨⟨k, p⟩, hp, rfl⟩

theorem Extended.refl (t : Pools κ) : t.Extended [] t := ⟨(List.append_nil _).symm, rfl⟩

theorem Extended.size (h : t.Extended new t') : t'.size = t.size + new.length := by
  rw [← length_kinds, h.kinds, List.length_append, length_kinds]

theorem Extended.trans (h : t.Extended new t') (h' : t'.Extended new' t'') :
    t.Extended (new ++ new') t'' where
  kinds := by rw [h'.kinds, h.kinds, List.append_assoc]
  slots := by
    rw [h'.slots, h.slots, h.size, List.zipIdx_append, List.reverse_append, List.append_assoc]

theorem Extended.slots_eq (h : (empty : Pools κ).Extended new t) :
    t.kinds = new ∧ t.slots = t.kinds.zipIdx.reverse := by
  have hk : t.kinds = new := h.kinds
  have hs : t.slots = new.zipIdx.reverse := h.slots.trans (List.append_nil _)
  exact ⟨hk, hk ▸ hs⟩

theorem extended_push (t : Pools κ) (p : Pool k) : t.Extended [k] (t.push k p) where
  kinds := by simp [Pools.push, Pools.kinds]
  slots := rfl

theorem extended_mapPools (t : Pools κ) (g : (k : κ) → Pool k → Pool k) :
    t.Extended [] (t.mapPools g) where
  kinds := by simp [Pools.mapPools, Pools.kinds, Function.comp_def]
  slots := rfl

theorem extended_eraseEntity (t : Pools κ) (e : Entity) : t.Extended [] (t.eraseEntity e) :=
  t.extended_mapPools fun _ p => p.erase e

theorem extended_clear (t : Pools κ) : t.Extended [] t.clear :=
  t.extended_mapPools fun _ p => p.clear

variable [DecidableEq κ]

theorem extended_modify (t : Pools κ) (k : κ) (f : Pool k → Pool k) :
    t.Extended [] (t.modify k f) := by
  rw [Pools.modify]
  cases t.slot? k with
  | none => exact .refl t
  | some slot =>
    refine ⟨?_, rfl⟩
    rw [List.append_nil, Pools.kinds, Pools.kinds, Array.toList_modify]
    apply List.ext_getElem?
    intro i
    rw [List.getElem?_map, List.getElem?_map, List.getElem?_modify]
    cases t.pools.toList[i]? with
    | none => rfl
    | some p =>
      by_cases hi : slot = i
      · simp only [hi, if_true, Option.map_eq_map, Option.map_some]
        cases hp : p.cast? k with
        | none => rfl
        | some q =>
          rw [AnyPool.cast?_eq_some_iff] at hp
          rw [hp]
      · simp [hi]

theorem Valid.extended_update {ρ : Type} (h : t.Valid) (k : κ) (absent : ρ)
    (f : Pool k → ρ × Pool k) : t.Extended [] (t.update k absent f).2 := by
  cases hp : t.get? k with
  | none =>
    rw [update_of_none hp]
    exact .refl t
  | some p =>
    rw [h.update_of_some hp]
    exact t.extended_modify k _

theorem extended_deleteAll (t : Pools κ) (e : Entity) (q : List κ) :
    t.Extended [] (t.deleteAll e q).2 := by
  rw [deleteAll_snd]
  induction q generalizing t with
  | nil => exact .refl t
  | cons k q ih => exact (t.extended_modify k (·.erase e)).trans (ih _)

theorem extended_clearAll (t : Pools κ) (q : List κ) : t.Extended [] (t.clearAll q) := by
  induction q generalizing t with
  | nil => exact .refl t
  | cons k q ih => exact (t.extended_modify k Pool.clear).trans (ih _)

theorem extended_store (t : Pools κ) (e : Entity) (row : Row Value q) :
    t.Extended [] (t.store e row) := by
  induction row generalizing t with
  | nil => exact .refl t
  | cons value rest ih => exact (t.extended_modify _ (·.modify e fun _ => value)).trans (ih _)

theorem extended_foldl_visit {σ : Type} (f : σ → Entity → Row Value q → σ × Row Value q)
    (x : Nat × σ × Pools κ) (es : Array Entity) :
    x.2.2.Extended [] (es.foldl (visit q f) x).2.2 := by
  rw [← Array.foldl_toList]
  induction es.toList generalizing x with
  | nil => exact .refl _
  | cons e es ih =>
    have hstep : x.2.2.Extended [] (visit q f x e).2.2 := by
      rw [visit]
      split
      · exact .refl _
      · exact extended_store ..
    exact hstep.trans (ih _)

/-- The allocator gives a pool of the kind room for the numbers below `n`. -/
def affords (k : κ) (n : Nat) : Bool := ((Pool.empty : Pool k).reserve n).1.isOk

def founded (t : Pools κ) (k : κ) (capacity : Nat) : List κ :=
  if t.contains k = false ∧ affords k capacity = true then [k] else []

omit [DecidableEq κ] in
theorem affords_iff : affords k capacity = true ↔
    ((Pool.empty : Pool k).reserve capacity).1 = .ok () := by
  rw [affords]
  cases ((Pool.empty : Pool k).reserve capacity).1 <;> simp [Except.isOk, Except.toBool]

theorem mem_founded_iff {k' : κ} : k' ∈ t.founded k capacity ↔
    k' = k ∧ t.contains k = false ∧ ((Pool.empty : Pool k).reserve capacity).1 = .ok () := by
  rw [founded, ← affords_iff]
  split
  · rename_i hk
    simp [hk]
  · rename_i hk
    simp only [hk, and_false, List.not_mem_nil]

theorem extended_ensure (t : Pools κ) (k : κ) (capacity : Nat) :
    t.Extended (t.founded k capacity) (t.ensure k capacity).state := by
  rcases t.ensure_cases k capacity with ⟨hc, he⟩ | ⟨hc, cause, hr, he⟩ | ⟨hc, hr, he⟩
  · rw [he, founded, if_neg (by simp [hc])]
    exact .refl t
  · rw [he, founded, if_neg (by simp [affords_iff, hr])]
    exact .refl t
  · rw [he, founded, if_pos ⟨hc, affords_iff.mpr hr⟩]
    exact t.extended_push (fresh k capacity)

theorem Valid.extended_updateOrCreate {ρ : Type} (h : t.Valid) (k : κ) (capacity : Nat)
    (f : Pool k → Except Failure ρ × Pool k) :
    t.Extended (t.founded k capacity) (t.updateOrCreate k capacity f).state := by
  have hx := t.extended_ensure k capacity
  have hv := h.ensure k capacity
  rw [Pools.updateOrCreate]
  split
  · rename_i he
    rw [he] at hx
    exact hx
  · rename_i he
    rw [he] at hx hv
    exact List.append_nil (t.founded k capacity) ▸ hx.trans (hv.extended_update k _ f)

theorem Valid.slot?_kind (h : t.Valid) {p : AnyPool κ} (hp : t.pools[slot]? = some p) :
    t.slot? p.kind = some slot :=
  h.slot?_iff.mpr ⟨p.pool, hp⟩

theorem Valid.slot?_iff_kinds (h : t.Valid) : t.slot? k = some slot ↔ t.kinds[slot]? = some k :=
  h.slot?_iff.trans getElem?_kinds.symm

theorem Valid.slot?_inj (h : t.Valid) {k' : κ} (hs : t.slot? k = some slot)
    (hs' : t.slot? k' = some slot) : k = k' := by
  rw [h.slot?_iff_kinds] at hs hs'
  exact Option.some.inj (hs.symm.trans hs')

theorem Valid.nodup_kinds (h : t.Valid) : t.kinds.Nodup := by
  rw [List.nodup_iff_getElem?_ne_getElem?]
  intro i j hij hj he
  have hk := List.getElem?_eq_getElem hj
  have hi := h.slot?_iff_kinds.mpr (he.trans hk)
  rw [h.slot?_iff_kinds.mpr hk, Option.some.injEq] at hi
  omega

end Pools

end TickWorld
