import Mathlib.Data.List.Perm.Subperm
import TickWorld.Proofs.Refines
import TickWorld.Proofs.Storage.SparseSet

namespace TickWorld

/-- Values in their order, and a bound that all their indices are below. -/
@[ext] structure Listing (α : Type) where
  values : List α
  capacity : Nat
deriving DecidableEq

/-- The last element moves to a position, and the last place is dropped. -/
def moveLast {α : Type} (l : List α) (i : Nat) : List α :=
  match l.getLast? with
  | none => []
  | some last => (l.set i last).dropLast

theorem toList_swapRemove_eq_moveLast {α : Type} {xs : Array α} {slot : Nat}
    (h : slot < xs.size) : (swapRemove xs slot).toList = moveLast xs.toList slot := by
  have hl : xs.toList.getLast? = some xs[xs.size - 1] := by
    simp [List.getLast?_eq_getElem?]
  rw [toList_swapRemove h, moveLast, hl]

theorem idxOf?_eq_some_iff_of_nodup {α : Type} [DecidableEq α] {l : List α} {v : α} {i : Nat}
    (hn : l.Nodup) : l.idxOf? v = some i ↔ l[i]? = some v := by
  rw [List.idxOf?_eq_some_iff, List.getElem?_eq_some_iff]
  constructor
  · intro hx
    obtain ⟨hi, hv, -⟩ := hx
    exact ⟨hi, hv⟩
  · intro hx
    obtain ⟨hi, hv⟩ := hx
    refine ⟨hi, hv, fun j hj he => ?_⟩
    have hij := (List.getElem_inj hn).mp (he.trans hv.symm)
    omega

namespace Listing

variable {α : Type}

def grow (d : Listing α) (n : Nat) : Listing α := { d with capacity := max d.capacity n }

/-- Makes room for indices below `n` if the allocator gives it: for as many positions, and for as
many values. -/
def reserve [SparseIndex α] (d : Listing α) (n : Nat) : Bool × Listing α :=
  if n ≤ d.capacity ∨ n < slotLimit ∧ n < SparseIndex.arrayLimit α then (true, d.grow n)
  else (false, d)

variable [DecidableEq α]

def insert [SparseIndex α] (d : Listing α) (v : α) : Bool × Listing α :=
  if v ∈ d.values then (false, d)
  else (true, ⟨d.values ++ [v], max d.capacity (SparseIndex.index v + 1)⟩)

def erase (d : Listing α) (v : α) : Bool × Listing α :=
  match d.values.idxOf? v with
  | none => (false, d)
  | some i => (true, { d with values := moveLast d.values i })

end Listing

namespace SparseSet

open SparseIndex (index index_inj arrayLimit)

/-- What can be done to a set. -/
inductive Call (α : Type) where
  | insert (v : α)
  | erase (v : α)
  | clear
  /-- Demands room for indices below `n`. -/
  | reserve (n : Nat)
  /-- Asks for room for indices below `n`. -/
  | tryReserve (n : Nat)
  /-- Goes on with a copy of the set. -/
  | clone

variable {α : Type}

def listing (s : SparseSet α) : Listing α := ⟨s.toList, s.capacity⟩

variable [DecidableEq α] [SparseIndex α]

/-- Whether a call was granted, and what becomes of the set. A value that is present is not inserted
again, and one that is absent is not erased. -/
def Call.perform : Call α → SparseSet α → Bool × SparseSet α
  | insert v, s =>
    match s.insert? v with
    | some s' => (true, s')
    | none => (false, s)
  | erase v, s =>
    match s.erase? v with
    | some s' => (true, s')
    | none => (false, s)
  | clear, s => (true, s.clear)
  | reserve n, s =>
    match s.reserve n with
    | .ok s' => (true, s')
    | .error _ => (false, s)
  | tryReserve n, s => s.tryReserve n
  | clone, s => (true, s)

def Call.meaning : Call α → Listing α → Bool × Listing α
  | insert v, d => d.insert v
  | erase v, d => d.erase v
  | clear, d => (true, { d with values := [] })
  | reserve n, d => d.reserve n
  | tryReserve n, d => d.reserve n
  | clone, d => (true, d)

/-- The sets that calls lead to from a new one. -/
inductive Reachable : SparseSet α → Prop where
  | empty : Reachable SparseSet.empty
  | withCapacity {n : Nat} {s : SparseSet α} : SparseSet.withCapacity n = .ok s → Reachable s
  | call {s : SparseSet α} (c : Call α) : Reachable s → Reachable (c.perform s).2

variable {s s' : SparseSet α} {v : α} {i n : Nat}

omit [DecidableEq α] [SparseIndex α] in
theorem listing_grow (s : SparseSet α) (n : Nat) : (s.grow n).listing = s.listing.grow n := by
  have hc : (s.grow n).capacity = max s.capacity n := by
    simp only [capacity, grow, Array.size_append, Array.size_replicate]
    omega
  rw [listing, hc]
  rfl

omit [DecidableEq α] in
theorem listing_append (s : SparseSet α) (v : α) :
    (s.append v).listing = ⟨s.toList ++ [v], max s.capacity (index v + 1)⟩ := by
  have hc := congrArg Listing.capacity (s.listing_grow (index v + 1))
  have ha : (s.append v).capacity = (s.grow (index v + 1)).capacity := by
    simp [capacity, append, grow]
  rw [listing, toList_append, ha]
  exact congrArg (Listing.mk _) hc

omit [DecidableEq α] in
theorem capacity_eraseAt (s : SparseSet α) (i : Nat) : (s.eraseAt i).capacity = s.capacity := by
  simp only [capacity, sparse_eraseAt]
  split
  · rfl
  · rw [Array.size_setIfInBounds]

theorem capacity_erase (s : SparseSet α) (v : α) : (s.erase v).capacity = s.capacity := by
  rw [SparseSet.erase]
  cases s.indexOf? v with
  | none => rfl
  | some i => exact s.capacity_eraseAt i

omit [DecidableEq α] in
theorem listing_eraseAt (hi : i < s.dense.size) :
    (s.eraseAt i).listing = { s.listing with values := moveLast s.toList i } := by
  have hl : (s.eraseAt i).toList = moveLast s.toList i := by
    rw [toList, dense_eraseAt, toList_swapRemove_eq_moveLast hi, toList]
  rw [listing, hl, capacity_eraseAt]
  rfl

theorem Valid.indexOf?_eq (h : s.Valid) (v : α) : s.indexOf? v = s.toList.idxOf? v := by
  ext i
  rw [h.indexOf?_eq_some_iff, idxOf?_eq_some_iff_of_nodup h.nodup, toList, Array.getElem?_toList]

theorem Call.perform_insert (v : α) (s : SparseSet α) :
    perform (.insert v) s = if s.has v then (false, s) else (true, s.append v) := by
  rw [perform, insert?]
  cases s.has v <;> rfl

theorem Call.perform_erase (v : α) (s : SparseSet α) :
    perform (.erase v) s =
      match s.indexOf? v with
      | none => (false, s)
      | some i => (true, s.eraseAt i) := by
  rw [perform, erase?]
  cases s.indexOf? v <;> rfl

theorem Call.perform_insert_snd (v : α) (s : SparseSet α) :
    (perform (.insert v) s).2 = s.insert v := by
  rw [perform_insert, SparseSet.insert]
  split <;> rfl

theorem Call.perform_erase_snd (v : α) (s : SparseSet α) :
    (perform (.erase v) s).2 = s.erase v := by
  rw [perform_erase, SparseSet.erase]
  cases s.indexOf? v <;> rfl

theorem Call.perform_reserve (n : Nat) (s : SparseSet α) :
    perform (.reserve n) s = if s.canGrow n then (true, s.grow n) else (false, s) := by
  rw [perform, reserve_eq]
  cases s.canGrow n <;> rfl

theorem Valid.listing_insert (h : s.Valid) (v : α) :
    (Call.perform (.insert v) s).1 = (s.listing.insert v).1 ∧
      (Call.perform (.insert v) s).2.listing = (s.listing.insert v).2 := by
  rw [Call.perform_insert, Listing.insert]
  by_cases hv : v ∈ s.listing.values
  · rw [if_pos (h.has_iff.mpr hv), if_pos hv]
    exact ⟨rfl, rfl⟩
  · rw [h.has_eq_false_iff.mpr hv, if_neg Bool.false_ne_true, if_neg hv]
    exact ⟨rfl, s.listing_append v⟩

theorem Valid.listing_erase (h : s.Valid) (v : α) :
    (Call.perform (.erase v) s).1 = (s.listing.erase v).1 ∧
      (Call.perform (.erase v) s).2.listing = (s.listing.erase v).2 := by
  have hx : s.listing.values.idxOf? v = s.indexOf? v := (h.indexOf?_eq v).symm
  rw [Call.perform_erase, Listing.erase, hx]
  cases hi : s.indexOf? v with
  | none => exact ⟨rfl, rfl⟩
  | some i =>
    obtain ⟨hs, -⟩ := Array.getElem?_eq_some_iff.mp (getElem?_of_indexOf? hi)
    exact ⟨rfl, listing_eraseAt hs⟩

omit [DecidableEq α] in
theorem listing_reserve (s : SparseSet α) (n : Nat) :
    (if s.canGrow n then (true, s.grow n) else (false, s)).1 = (s.listing.reserve n).1 ∧
      (if s.canGrow n then (true, s.grow n) else (false, s)).2.listing =
        (s.listing.reserve n).2 := by
  have hc : s.canGrow n = true ↔ n ≤ s.listing.capacity ∨ n < slotLimit ∧ n < arrayLimit α := by
    simp [canGrow, listing]
  rw [Listing.reserve]
  by_cases hg : s.canGrow n = true
  · rw [if_pos hg, if_pos (hc.mp hg)]
    exact ⟨rfl, s.listing_grow n⟩
  · rw [if_neg hg, if_neg (mt hc.mpr hg)]
    exact ⟨rfl, rfl⟩

omit [DecidableEq α] in
theorem Valid.reserve (h : s.Valid) (n : Nat) :
    (if s.canGrow n then (true, s.grow n) else (false, s)).2.Valid := by
  split
  · exact h.grow n
  · exact h

theorem Valid.perform (h : s.Valid) (c : Call α) : (c.perform s).2.Valid := by
  cases c with
  | insert v =>
    rw [Call.perform_insert]
    cases hv : s.has v with
    | true => exact h
    | false => exact h.append (h.has_eq_false_iff.mp hv)
  | erase v =>
    rw [Call.perform_erase]
    cases s.indexOf? v with
    | none => exact h
    | some i => exact h.eraseAt i
  | clear => exact s.valid_clear
  | reserve n =>
    rw [Call.perform_reserve]
    exact h.reserve n
  | tryReserve n =>
    rw [Call.perform, tryReserve_eq]
    exact h.reserve n
  | clone => exact h

/-- A valid set does to its listing what the calls mean. -/
theorem refines_listing :
    Refines (A := fun _ : Call α => Bool) Valid listing Call.perform Call.meaning := by
  have hstep (c : Call α) {s : SparseSet α} (h : s.Valid) :
      (c.perform s).1 = (c.meaning s.listing).1 ∧
        (c.perform s).2.listing = (c.meaning s.listing).2 := by
    cases c with
    | insert v => exact h.listing_insert v
    | erase v => exact h.listing_erase v
    | clear => exact ⟨rfl, rfl⟩
    | reserve n =>
      rw [Call.perform_reserve]
      exact s.listing_reserve n
    | tryReserve n =>
      rw [Call.perform, tryReserve_eq]
      exact s.listing_reserve n
    | clone => exact ⟨rfl, rfl⟩
  exact ⟨fun c _ h => h.perform c, fun c _ h => (hstep c h).1, fun c _ h => (hstep c h).2⟩

theorem Reachable.valid (h : s.Reachable) : s.Valid := by
  induction h with
  | empty => exact valid_empty
  | @withCapacity n s hs =>
    rw [withCapacity_eq_ok hs]
    exact valid_empty.grow n
  | call c _ ih => exact ih.perform c

structure Shows (s : SparseSet α) (d : Listing α) : Prop where
  nodup : d.values.Nodup
  index_lt : ∀ v ∈ d.values, index v < d.capacity
  length_le : d.values.length ≤ d.capacity
  has : ∀ v, s.has v = decide (v ∈ d.values)
  indexOf? : ∀ v, s.indexOf? v = d.values.idxOf? v
  toList : s.toList = d.values
  size : s.size = d.values.length
  isEmpty : s.isEmpty = d.values.isEmpty
  first? : s.first? = d.values.head?
  capacity : s.capacity = d.capacity

omit [DecidableEq α] in
theorem Valid.index_lt (h : s.Valid) (hv : v ∈ s.toList) : index v < s.capacity := by
  rw [toList, Array.mem_toList_iff, Array.mem_iff_getElem?] at hv
  obtain ⟨i, hi⟩ := hv
  obtain ⟨hlt, -⟩ := Array.getElem?_eq_some_iff.mp (h.leads_back hi)
  exact hlt

omit [DecidableEq α] in
/-- The indices of the present values are distinct numbers. -/
theorem Valid.size_le_of_index_lt (h : s.Valid) (hb : ∀ v ∈ s.toList, index v < n) :
    s.size ≤ n := by
  have hn : (s.toList.map index).Nodup :=
    List.Pairwise.map index (fun _ _ hne he => hne (index_inj he)) h.nodup
  have hs : s.toList.map index ⊆ List.range n := by
    intro i hi
    obtain ⟨v, hv, rfl⟩ := List.mem_map.mp hi
    exact List.mem_range.mpr (hb v hv)
  have hl := (hn.subperm hs).length_le
  rwa [List.length_map, List.length_range, toList, Array.length_toList] at hl

omit [DecidableEq α] in
theorem Valid.size_le_capacity (h : s.Valid) : s.size ≤ s.capacity :=
  h.size_le_of_index_lt fun _ hv => h.index_lt hv

theorem Valid.shows (h : s.Valid) : s.Shows s.listing where
  nodup := h.nodup
  index_lt _ hv := h.index_lt hv
  length_le := h.size_le_capacity
  has v := by
    rw [Bool.eq_iff_iff, h.has_iff, decide_eq_true_eq]
    rfl
  indexOf? := h.indexOf?_eq
  toList := rfl
  size := rfl
  isEmpty := by simp [SparseSet.isEmpty, listing, SparseSet.toList, Array.isEmpty_toList]
  first? := by simp [SparseSet.first?, listing, SparseSet.toList, List.head?_eq_getElem?]
  capacity := rfl

/-- Two sets that differ in the positions of absent values at most. -/
structure SamePresent (s s' : SparseSet α) : Prop where
  dense : s'.dense = s.dense
  size : s'.sparse.size = s.sparse.size
  present : ∀ v ∈ s.toList, s'.sparse[index v]? = s.sparse[index v]?

omit [DecidableEq α] in
theorem Valid.samePresent (h : s.Valid) (hs : s.SamePresent s') :
    s'.Valid ∧ s'.listing = s.listing := by
  constructor
  · constructor
    intro i v hv
    rw [hs.dense] at hv
    have hm : v ∈ s.toList := by
      simpa [toList] using Array.mem_of_getElem? hv
    rw [hs.present v hm, h.leads_back hv]
  · rw [listing, listing, toList, toList, hs.dense, capacity, capacity, hs.size]

end SparseSet

end TickWorld
