import TickWorld.Proofs.Storage.SparseSet
import TickWorld.Storage.Pool

namespace TickWorld

open ComponentKind (name valueLimit)

variable {κ : Type} [ComponentKind κ] {k : κ}

/-- Entities are smaller than positions, so an array of entities is refused only where one of as
many positions is. -/
theorem SparseSet.canGrow_iff {s : SparseSet Entity} {n : Nat} :
    s.canGrow n = true ↔ n ≤ s.capacity ∨ n < slotLimit := by
  have hlimit : SparseIndex.arrayLimit Entity = 2 * slotLimit := rfl
  simp only [canGrow, Bool.or_eq_true, Bool.and_eq_true, decide_eq_true_eq]
  omega

theorem SparseSet.canGrow_index (s : SparseSet Entity) (e : Entity) :
    s.canGrow (e.index + 1) = true := by
  have := e.index_lt
  rw [canGrow_iff, slotLimit]
  omega

theorem exists_getElem?_swapRemove {α β : Type} {xs : Array α} {ys : Array β} {slot : Nat}
    {a : α} {b : β} (hs : slot < xs.size) (hn : ys.size = xs.size) (ha : xs[slot]? ≠ some a) :
    (∃ i : Nat, (swapRemove xs slot)[i]? = some a ∧ (swapRemove ys slot)[i]? = some b) ↔
      ∃ i : Nat, xs[i]? = some a ∧ ys[i]? = some b := by
  have hs' : slot < ys.size := by omega
  simp only [getElem?_swapRemove hs, getElem?_swapRemove hs', hn]
  constructor
  · intro hx
    obtain ⟨i, hi, hb⟩ := hx
    split at hi
    · rename_i hlt
      rw [if_pos hlt] at hb
      split at hi
      · rename_i hslot
        rw [if_pos hslot] at hb
        exact ⟨_, hi, hb⟩
      · rename_i hslot
        rw [if_neg hslot] at hb
        exact ⟨_, hi, hb⟩
    · cases hi
  · intro hx
    obtain ⟨i, hi, hb⟩ := hx
    obtain ⟨hlt, -⟩ := Array.getElem?_eq_some_iff.mp hi
    have hslot : i ≠ slot := fun he => ha (he ▸ hi)
    by_cases hlast : i = xs.size - 1
    · refine ⟨slot, ?_, ?_⟩
      · rw [if_pos (by omega), if_pos rfl, ← hlast, hi]
      · rw [if_pos (by omega), if_pos rfl, ← hlast, hb]
    · refine ⟨i, ?_, ?_⟩
      · rw [if_pos (by omega), if_neg hslot, hi]
      · rw [if_pos (by omega), if_neg hslot, hb]

namespace Pool

/-- The owners form a set, and each of them has a value at its own position. -/
structure Valid (p : Pool k) : Prop where
  owners : p.owners.Valid
  aligned : p.values.size = p.owners.dense.size

variable {p p' : Pool k} {e e' : Entity} {x value : Value k} {i n : Nat}

theorem valid_empty : (empty : Pool k).Valid := ⟨SparseSet.valid_empty, rfl⟩

theorem valid_clear (p : Pool k) : p.clear.Valid := ⟨p.owners.valid_clear, rfl⟩

theorem Valid.get?_eq_some_iff (h : p.Valid) :
    p.get? e = some x ↔ ∃ i : Nat, p.owners.dense[i]? = some e ∧ p.values[i]? = some x := by
  simp only [get?]
  split
  · rename_i hn
    rw [h.owners.indexOf?_eq_none_iff, SparseSet.toList, Array.mem_toList_iff,
      Array.mem_iff_getElem?] at hn
    simp only [reduceCtorEq, false_iff]
    intro hx
    obtain ⟨i, hi, -⟩ := hx
    exact hn ⟨i, hi⟩
  · rename_i i hi
    rw [h.owners.indexOf?_eq_some_iff] at hi
    refine ⟨fun hx => ⟨i, hi, hx⟩, ?_⟩
    intro hx
    obtain ⟨j, hj, hx⟩ := hx
    have he := (h.owners.leads_back hi).symm.trans (h.owners.leads_back hj)
    cases he
    exact hx

theorem Valid.isSome_get? (h : p.Valid) (e : Entity) : (p.get? e).isSome = p.has e := by
  simp only [get?, has, SparseSet.has]
  split
  · rename_i hn
    rw [hn]
    rfl
  · rename_i i hi
    rw [hi]
    rw [h.owners.indexOf?_eq_some_iff] at hi
    obtain ⟨hs, -⟩ := Array.getElem?_eq_some_iff.mp hi
    simp [h.aligned, hs]

theorem Valid.get?_eq_none_iff (h : p.Valid) : p.get? e = none ↔ e ∉ p.entities := by
  rw [← Option.isNone_iff_eq_none, ← Option.isSome_eq_false_iff, h.isSome_get?, has,
    h.owners.has_eq_false_iff, entities]

theorem Valid.has_iff (h : p.Valid) : p.has e = true ↔ e ∈ p.entities := h.owners.has_iff

/-- Pools with the same owners and values in the same order answer alike, whatever else their
index arrays hold. -/
theorem Valid.get?_congr (h : p.Valid) (h' : p'.Valid) (hd : p.owners.dense = p'.owners.dense)
    (hv : p.values = p'.values) (e : Entity) : p.get? e = p'.get? e := by
  ext x
  rw [h.get?_eq_some_iff, h'.get?_eq_some_iff, hd, hv]

@[simp] theorem get?_empty (e : Entity) : (empty : Pool k).get? e = none := by
  simp [empty, get?, SparseSet.indexOf?, SparseSet.empty]

@[simp] theorem get?_clear (p : Pool k) (e : Entity) : p.clear.get? e = none := by
  simp only [clear, get?, SparseSet.indexOf?, SparseSet.clear]
  split <;> simp_all

theorem Valid.modify (h : p.Valid) (e : Entity) (f : Value k → Value k) : (p.modify e f).Valid := by
  simp only [Pool.modify]
  split
  · exact h
  · exact ⟨h.owners, by simpa using h.aligned⟩

theorem owners_modify (p : Pool k) (e : Entity) (f : Value k → Value k) :
    (p.modify e f).owners = p.owners := by
  simp only [Pool.modify]
  split <;> rfl

theorem Valid.get?_modify (h : p.Valid) (e e' : Entity) (f : Value k → Value k) :
    (p.modify e f).get? e' = if e' = e then (p.get? e).map f else p.get? e' := by
  simp only [Pool.modify, get?]
  cases hi : p.owners.indexOf? e with
  | none =>
    by_cases he : e' = e
    · simp [he, hi]
    · simp [he]
  | some i =>
    cases hj : p.owners.indexOf? e' with
    | none =>
      have hne : e' ≠ e := fun he => by simp [he, hi] at hj
      simp [hne]
    | some j =>
      rw [h.owners.indexOf?_eq_some_iff] at hi hj
      by_cases he : e' = e
      · subst e'
        have hp := (h.owners.leads_back hi).symm.trans (h.owners.leads_back hj)
        cases hp
        simp [Array.getElem?_modify]
      · have hne : i ≠ j := fun hij => by
          rw [hij, hj] at hi
          exact he (Option.some.inj hi)
        simp [Array.getElem?_modify, hne, he]

theorem Valid.map (h : p.Valid) (f : Entity → Value k → Value k) : (p.map f).Valid :=
  ⟨h.owners, by simpa [Pool.map] using h.aligned⟩

theorem Valid.get?_map (h : p.Valid) (f : Entity → Value k → Value k) (e : Entity) :
    (p.map f).get? e = (p.get? e).map (f e) := by
  simp only [Pool.map, get?]
  split
  · rfl
  · rename_i i hi
    rw [h.owners.indexOf?_eq_some_iff] at hi
    simp [Array.getElem?_mapIdx, hi]

theorem Valid.replace (h : p.Valid) (e : Entity) (value : Value k) :
    (p.replace e value).2.Valid := by
  simp only [Pool.replace]
  split
  · exact h
  · exact h.modify _ _

theorem Valid.get?_replace_of_ne (h : p.Valid) (he : e' ≠ e) (value : Value k) :
    (p.replace e value).2.get? e' = p.get? e' := by
  simp only [Pool.replace]
  split
  · rfl
  · rw [h.get?_modify, if_neg he]

theorem reserve_eq (p : Pool k) (n : Nat) :
    p.reserve n =
      if p.owners.canGrow n then
        (if p.size < n ∧ valueLimit k ≤ n then .error (.allocationFailed (name k) n) else .ok (),
          { p with owners := p.owners.grow n })
      else (.error (.allocationFailed (name k) n), p) := by
  obtain ⟨owners, values⟩ := p
  have hs : (⟨owners, values⟩ : Pool k).size = values.size := rfl
  simp only [Pool.reserve, SparseSet.tryReserve_eq, hs]
  cases owners.canGrow n with
  | true =>
    by_cases hv : values.size < n ∧ valueLimit k ≤ n
    · simp only [if_true, if_pos hv]
      rfl
    · simp only [if_true, if_neg hv]
  | false => rfl

theorem growFor_eq (p : Pool k) (e : Entity) :
    p.growFor e =
      (if valueLimit k ≤ p.size + 1 then .error (.allocationFailed (name k) (e.index + 1))
        else .ok (), { p with owners := p.owners.grow (e.index + 1) }) := by
  obtain ⟨owners, values⟩ := p
  have hs : (⟨owners, values⟩ : Pool k).size = values.size := rfl
  simp only [growFor, SparseSet.tryReserve_eq, SparseSet.canGrow_index, if_true, hs]
  by_cases hv : valueLimit k ≤ values.size + 1
  · simp only [if_pos hv]
    rfl
  · simp only [if_neg hv]

theorem Valid.reserve (h : p.Valid) (n : Nat) : (p.reserve n).2.Valid := by
  rw [reserve_eq]
  split
  · exact ⟨h.owners.grow n, h.aligned⟩
  · exact h

theorem Valid.get?_reserve (h : p.Valid) (n : Nat) (e : Entity) :
    (p.reserve n).2.get? e = p.get? e := by
  apply (h.reserve n).get?_congr h
  · rw [reserve_eq]
    split <;> rfl
  · rw [reserve_eq]
    split <;> rfl

theorem reserve_eq_error {cause : Failure} (hr : (p.reserve n).1 = .error cause) :
    cause = .allocationFailed (name k) n := by
  rw [reserve_eq] at hr
  split at hr
  · simp only at hr
    split at hr
    · cases hr
      rfl
    · cases hr
  · cases hr
    rfl

theorem reserve_of_ok (hr : (p.reserve n).1 = .ok ()) :
    p.owners.canGrow n = true ∧ (p.reserve n).2 = { p with owners := p.owners.grow n } := by
  rw [reserve_eq] at hr ⊢
  split at hr
  · rename_i hg
    rw [if_pos hg]
    exact ⟨hg, rfl⟩
  · cases hr

theorem growFor_fst (p : Pool k) (e : Entity) :
    (p.growFor e).1 =
      if valueLimit k ≤ p.size + 1 then .error (.allocationFailed (name k) (e.index + 1))
      else .ok () := by
  rw [growFor_eq]

theorem growFor_snd (p : Pool k) (e : Entity) :
    (p.growFor e).2 = { p with owners := p.owners.grow (e.index + 1) } := by
  rw [growFor_eq]

theorem growFor_eq_error {cause : Failure} (hg : (p.growFor e).1 = .error cause) :
    cause = .allocationFailed (name k) (e.index + 1) := by
  rw [growFor_fst] at hg
  split at hg
  · cases hg
    rfl
  · cases hg

theorem Valid.growFor (h : p.Valid) (e : Entity) : (p.growFor e).2.Valid := by
  rw [growFor_snd]
  exact ⟨h.owners.grow _, h.aligned⟩

theorem Valid.get?_growFor (h : p.Valid) (e e' : Entity) :
    (p.growFor e).2.get? e' = p.get? e' := by
  apply (h.growFor e).get?_congr h
  · rw [growFor_snd]
    rfl
  · rw [growFor_snd]

theorem assign_of_has (hp : p.has e = true) :
    p.assign e value = (.error (.alreadyAssigned e (name k)), p) := by
  rw [Pool.assign, if_pos hp]

theorem assign_of_refused {cause : Failure} (hp : p.has e = false)
    (hg : (p.growFor e).1 = .error cause) :
    p.assign e value = (.error cause, (p.growFor e).2) := by
  rw [Pool.assign, if_neg (by simp [hp])]
  split
  · rename_i c q hq
    rw [hq] at hg ⊢
    cases hg
    rfl
  · rename_i hq
    rw [hq] at hg
    cases hg

theorem assign_of_granted (hp : p.has e = false) (hg : (p.growFor e).1 = .ok ()) :
    p.assign e value = (.ok (),
      { owners := (p.growFor e).2.owners.insert e, values := p.values.push value }) := by
  have hv : (p.growFor e).2.values = p.values := by
    rw [growFor_snd]
  rw [Pool.assign, if_neg (by simp [hp])]
  split
  · rename_i hq
    rw [hq] at hg
    cases hg
  · rename_i hq
    rw [hq] at hv ⊢
    exact congrArg (fun vs => (Except.ok (), (⟨_, Array.push vs value⟩ : Pool k))) hv

theorem dense_assign (h : p.Valid) (hp : p.has e = false) :
    ((p.growFor e).2.owners.insert e).dense = p.owners.dense.push e := by
  have hn : e ∉ (p.growFor e).2.owners.toList := by
    rw [growFor_snd]
    exact h.owners.has_eq_false_iff.mp hp
  have hl := (h.growFor e).owners.toList_insert e
  rw [if_neg hn, growFor_snd] at hl
  rw [growFor_snd]
  exact Array.ext' (by simpa [SparseSet.toList, SparseSet.grow] using hl)

theorem Valid.assign (h : p.Valid) (e : Entity) (value : Value k) :
    (p.assign e value).2.Valid := by
  cases hp : p.has e with
  | true =>
    rw [assign_of_has hp]
    exact h
  | false =>
    cases hg : (p.growFor e).1 with
    | error cause =>
      rw [assign_of_refused hp hg]
      exact h.growFor e
    | ok =>
      rw [assign_of_granted hp hg]
      refine ⟨(h.growFor e).owners.insert e, ?_⟩
      simp [dense_assign h hp, h.aligned]

theorem Valid.get?_assign (h : p.Valid) (hp : p.has e = false)
    (hg : (p.growFor e).1 = .ok ()) (e' : Entity) :
    (p.assign e value).2.get? e' = if e' = e then some value else p.get? e' := by
  have ha := h.assign e value
  have hn : p.get? e = none := by
    rw [← Option.isNone_iff_eq_none, ← Option.isSome_eq_false_iff, h.isSome_get?, hp]
  rw [assign_of_granted hp hg] at ha ⊢
  have hd := dense_assign h hp
  ext x
  rw [ha.get?_eq_some_iff]
  simp only [hd, Array.getElem?_push, h.aligned]
  by_cases he : e' = e
  · subst e'
    rw [if_pos rfl, Option.some.injEq]
    constructor
    · intro hx
      obtain ⟨i, hi, hx⟩ := hx
      by_cases hlast : i = p.owners.dense.size
      · simpa [hlast] using hx
      · -- The entity owned nothing before, so no earlier position is its own.
        rw [if_neg hlast] at hi
        have hm : e ∈ p.entities := by
          simpa [entities, SparseSet.toList] using Array.mem_of_getElem? hi
        exact absurd hm (h.get?_eq_none_iff.mp hn)
    · rintro rfl
      exact ⟨p.owners.dense.size, by simp⟩
  · rw [if_neg he, h.get?_eq_some_iff]
    constructor
    · intro hx
      obtain ⟨i, hi, hx⟩ := hx
      by_cases hlast : i = p.owners.dense.size
      · rw [if_pos hlast, Option.some.injEq] at hi
        exact absurd hi.symm he
      · rw [if_neg hlast] at hi hx
        exact ⟨i, hi, hx⟩
    · intro hx
      obtain ⟨i, hi, hx⟩ := hx
      obtain ⟨hlt, -⟩ := Array.getElem?_eq_some_iff.mp hi
      have hlast : i ≠ p.owners.dense.size := by omega
      exact ⟨i, by rw [if_neg hlast, hi], by rw [if_neg hlast, hx]⟩

theorem Valid.get?_assign_of_ne (h : p.Valid) (he : e' ≠ e) (value : Value k) :
    (p.assign e value).2.get? e' = p.get? e' := by
  cases hp : p.has e with
  | true => rw [assign_of_has hp]
  | false =>
    cases hg : (p.growFor e).1 with
    | error cause => rw [assign_of_refused hp hg, h.get?_growFor]
    | ok => rw [h.get?_assign hp hg, if_neg he]

theorem Valid.assignOrReplace (h : p.Valid) (e : Entity) (value : Value k) :
    (p.assignOrReplace e value).2.Valid := by
  simp only [Pool.assignOrReplace]
  split
  · exact h.modify _ _
  · exact h.assign _ _

theorem Valid.assignOrReplace_of_granted (h : p.Valid) (value : Value k)
    (hg : p.has e = false → (p.growFor e).1 = .ok ()) :
    (p.assignOrReplace e value).1 = .ok () ∧
      ∀ e', (p.assignOrReplace e value).2.get? e' =
        if e' = e then some value else p.get? e' := by
  rw [Pool.assignOrReplace]
  cases hp : p.has e with
  | true =>
    rw [← h.isSome_get?, Option.isSome_iff_exists] at hp
    obtain ⟨old, hold⟩ := hp
    constructor
    · rfl
    · intro e'
      rw [if_pos rfl, h.get?_modify, hold]
      rfl
  | false =>
    rw [if_neg Bool.false_ne_true]
    constructor
    · rw [assign_of_granted hp (hg hp)]
    · exact h.get?_assign hp (hg hp)

theorem Valid.get?_assignOrReplace_of_ne (h : p.Valid) (he : e' ≠ e) (value : Value k) :
    (p.assignOrReplace e value).2.get? e' = p.get? e' := by
  simp only [Pool.assignOrReplace]
  split
  · rw [h.get?_modify, if_neg he]
  · exact h.get?_assign_of_ne he value

theorem owners_erase (p : Pool k) (e : Entity) : (p.erase e).owners = p.owners.erase e := by
  simp only [Pool.erase, SparseSet.erase]
  cases p.owners.indexOf? e <;> rfl

theorem Valid.erase (h : p.Valid) (e : Entity) : (p.erase e).Valid := by
  refine ⟨by rw [owners_erase]; exact h.owners.erase e, ?_⟩
  simp only [Pool.erase]
  split
  · exact h.aligned
  · rename_i i hi
    rw [h.owners.indexOf?_eq_some_iff] at hi
    obtain ⟨hs, -⟩ := Array.getElem?_eq_some_iff.mp hi
    simp only [SparseSet.dense_eraseAt]
    rw [size_swapRemove hs, size_swapRemove (by rw [h.aligned]; exact hs), h.aligned]

theorem Valid.get?_erase (h : p.Valid) (e e' : Entity) :
    (p.erase e).get? e' = if e' = e then none else p.get? e' := by
  by_cases he : e' = e
  · rw [if_pos he, (h.erase e).get?_eq_none_iff, entities, owners_erase, h.owners.mem_erase]
    exact fun hm => hm.2 he
  · have ha := h.erase e
    rw [if_neg he]
    simp only [Pool.erase] at ha ⊢
    split
    · rfl
    · rename_i i hi
      rw [hi] at ha
      rw [h.owners.indexOf?_eq_some_iff] at hi
      obtain ⟨hs, hv⟩ := Array.getElem?_eq_some_iff.mp hi
      ext x
      rw [ha.get?_eq_some_iff, h.get?_eq_some_iff]
      simp only [SparseSet.dense_eraseAt]
      refine exists_getElem?_swapRemove hs h.aligned fun hj => he ?_
      exact Option.some.inj (hj.symm.trans hi)

variable (k) in
/-- What a holder of a pool can do to it, without regard to which entities are alive. -/
inductive Write where
  | assign (e : Entity) (value : Value k)
  | assignOrReplace (e : Entity) (value : Value k)
  | replace (e : Entity) (value : Value k)
  | delete (e : Entity)
  | modify (e : Entity) (f : Value k → Value k)
  | map (f : Entity → Value k → Value k)
  | clear
  | reserve (n : Nat)
  /-- Puts another pool in its place. -/
  | exchange (p : Pool k) (valid : p.Valid)

def Write.run : Write k → Pool k → Pool k
  | assign e value, p => (p.assign e value).2
  | assignOrReplace e value, p => (p.assignOrReplace e value).2
  | replace e value, p => (p.replace e value).2
  | delete e, p => (p.delete e).2
  | modify e f, p => p.modify e f
  | map f, p => p.map f
  | clear, p => p.clear
  | reserve n, p => (p.reserve n).2
  | exchange p _, _ => p

theorem Valid.write (h : p.Valid) (w : Write k) : (w.run p).Valid := by
  cases w with
  | assign e value => exact h.assign e value
  | assignOrReplace e value => exact h.assignOrReplace e value
  | replace e value => exact h.replace e value
  | delete e => exact h.erase e
  | modify e f => exact h.modify e f
  | map f => exact h.map f
  | clear => exact valid_clear p
  | reserve n => exact h.reserve n
  | exchange p hp => exact hp

end Pool

end TickWorld
