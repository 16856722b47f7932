import TickWorld.Storage.SparseSet

namespace TickWorld

theorem perm_cons_set {α : Type} {l : List α} {slot : Nat} {v : α} (a : α)
    (hv : l[slot]? = some v) : (a :: l).Perm (v :: l.set slot a) := by
  induction l generalizing slot with
  | nil => simp at hv
  | cons b t ih =>
    cases slot with
    | zero =>
      simp only [List.getElem?_cons_zero, Option.some.injEq] at hv
      subst b
      exact .swap _ _ _
    | succ slot =>
      simp only [List.getElem?_cons_succ] at hv
      calc (a :: b :: t).Perm (b :: a :: t) := .swap _ _ _
        _ |>.Perm (b :: v :: t.set slot a) := (ih hv).cons b
        _ |>.Perm (v :: b :: t.set slot a) := .swap _ _ _

theorem toList_swapRemove {α : Type} {xs : Array α} {slot : Nat} (h : slot < xs.size) :
    (swapRemove xs slot).toList = (xs.toList.set slot xs[xs.size - 1]).dropLast := by
  have hb : xs.back? = some xs[xs.size - 1] := by
    simp [Array.back?]
  simp [swapRemove, h, hb]

theorem toList_swapRemove_perm {α : Type} {xs : Array α} {slot : Nat} {v : α}
    (hv : xs[slot]? = some v) : xs.toList.Perm (v :: (swapRemove xs slot).toList) := by
  obtain ⟨hs, -⟩ := Array.getElem?_eq_some_iff.mp hv
  obtain ⟨ys, hys⟩ : ∃ ys, xs.toList = ys ++ [xs[xs.size - 1]] := by
    rw [← List.getLast?_eq_some_iff]
    simp [List.getLast?_eq_getElem?]
  have hn : xs.size = ys.length + 1 := by
    simpa using congrArg List.length hys
  rw [← Array.getElem?_toList, hys] at hv
  rw [toList_swapRemove hs, hys]
  by_cases hlast : slot = ys.length
  · subst slot
    simp only [List.getElem?_concat_length, Option.some.injEq] at hv
    simp [hv]
  · have hlt : slot < ys.length := by omega
    rw [List.getElem?_append_left hlt] at hv
    rw [List.set_append_left _ _ hlt, List.dropLast_concat]
    exact (List.perm_append_singleton _ _).trans (perm_cons_set _ hv)

namespace SparseSet

variable {α : Type} [SparseIndex α]

open SparseIndex (index index_inj arrayLimit)

/-- Every present value is led back to its position. -/
structure Valid (s : SparseSet α) : Prop where
  leads_back : ∀ {i : Nat} {v : α}, s.dense[i]? = some v → s.sparse[index v]? = some i

variable {s : SparseSet α} {v w : α} {i n : Nat}

theorem valid_empty : (empty : SparseSet α).Valid :=
  ⟨fun h => by simp [SparseSet.empty] at h⟩

theorem valid_clear (s : SparseSet α) : s.clear.Valid :=
  ⟨fun h => by simp [SparseSet.clear] at h⟩

omit [SparseIndex α] in
theorem grow_of_le (hn : n ≤ s.capacity) : s.grow n = s := by
  have h0 : n - s.sparse.size = 0 := Nat.sub_eq_zero_of_le hn
  rw [grow, h0]
  simp

/-- Whether the allocator gives room for indices below `n`. -/
def canGrow (s : SparseSet α) (n : Nat) : Bool :=
  n ≤ s.capacity || n < slotLimit && n < arrayLimit α

theorem canGrow_of_le (hn : n ≤ s.capacity) : s.canGrow n = true := by
  simp [canGrow, hn]

theorem canGrow_of_lt (hn : s.capacity < n) :
    s.canGrow n = (n < slotLimit && n < arrayLimit α) := by
  simp [canGrow, Nat.not_le_of_lt hn]

/-- What the two arrays are asked for together is given or refused at once. -/
theorem tryReserve_eq (s : SparseSet α) (n : Nat) :
    s.tryReserve n = if s.canGrow n then (true, s.grow n) else (false, s) := by
  rw [tryReserve]
  by_cases hn : s.capacity < n
  · rw [if_pos hn, canGrow_of_lt hn]
    simp only [← Nat.not_lt]
    by_cases hs : n < slotLimit
    · by_cases ha : n < arrayLimit α <;> simp [hs, ha]
    · simp [hs]
  · have hle := Nat.le_of_not_lt hn
    rw [if_neg hn, canGrow_of_le hle, if_pos rfl, grow_of_le hle]

theorem reserve_eq (s : SparseSet α) (n : Nat) :
    s.reserve n = if s.canGrow n then .ok (s.grow n) else .error .capacityOverflow := by
  rw [reserve]
  by_cases hn : s.capacity < n
  · rw [if_pos hn, canGrow_of_lt hn]
    simp only [← Nat.not_lt]
    by_cases ha : n < arrayLimit α
    · by_cases hs : n < slotLimit <;> simp [hs, ha]
    · simp [ha]
  · have hle := Nat.le_of_not_lt hn
    rw [if_neg hn, canGrow_of_le hle, if_pos rfl, grow_of_le hle]

theorem withCapacity_eq_ok (hs : withCapacity n = .ok s) : s = SparseSet.empty.grow n := by
  rw [withCapacity, reserve_eq] at hs
  split at hs
  · cases hs
    rfl
  · cases hs

theorem Valid.grow (h : s.Valid) (n : Nat) : (s.grow n).Valid := by
  constructor
  intro i v hv
  obtain ⟨hs, he⟩ := Array.getElem?_eq_some_iff.mp (h.leads_back hv)
  simp only [SparseSet.grow]
  rw [Array.getElem?_append_left hs, h.leads_back hv]

/-- Two positions of one value are the position that it leads back to. -/
theorem Valid.nodup (h : s.Valid) : s.toList.Nodup := by
  refine List.pairwise_iff_getElem.mpr fun i j hi hj hij he => ?_
  have hv : s.dense[i]? = some s.toList[i] := by
    simp [toList]
  have hw : s.dense[j]? = some s.toList[i] := by
    rw [he]
    simp [toList]
  have hp := (h.leads_back hv).symm.trans (h.leads_back hw)
  simp only [Option.some.injEq] at hp
  omega

@[simp] theorem toList_append : (s.append v).toList = s.toList ++ [v] := by
  simp [append, grow, toList]

theorem sparse_append :
    (s.append v).sparse[n]? =
      if n = index v then some s.dense.size else (s.grow (index v + 1)).sparse[n]? := by
  have hlt : index v < (s.grow (index v + 1)).sparse.size := by
    simp only [grow, Array.size_append, Array.size_replicate]
    omega
  by_cases hn : n = index v
  · subst n
    simp [append, grow, Array.getElem?_setIfInBounds] at hlt ⊢
    omega
  · rw [if_neg hn]
    simp only [append]
    rw [Array.getElem?_setIfInBounds_ne (Ne.symm hn)]

theorem Valid.append (h : s.Valid) (hv : v ∉ s.toList) : (s.append v).Valid := by
  constructor
  intro i w hw
  have hw' : (s.dense.push v)[i]? = some w := hw
  rw [Array.getElem?_push] at hw'
  rw [sparse_append]
  by_cases hi : i = s.dense.size
  · simp only [hi, if_true, Option.some.injEq] at hw'
    subst w
    simp [hi]
  · rw [if_neg hi] at hw'
    have hm : w ∈ s.toList := by
      simpa [toList] using Array.mem_of_getElem? hw'
    have hne : index w ≠ index v := fun he => hv (index_inj he ▸ hm)
    rw [if_neg hne]
    exact (h.grow _).leads_back hw'

theorem dense_eraseAt (s : SparseSet α) (slot : Nat) :
    (s.eraseAt slot).dense = swapRemove s.dense slot := by
  simp only [eraseAt]
  split <;> rfl

theorem sparse_eraseAt (s : SparseSet α) (slot : Nat) :
    (s.eraseAt slot).sparse =
      match (swapRemove s.dense slot)[slot]? with
      | none => s.sparse
      | some moved => s.sparse.setIfInBounds (index moved) slot := by
  simp only [eraseAt]
  cases (swapRemove s.dense slot)[slot]? <;> rfl

/-- After a removal the last value leads to the freed slot, all others to where they were. -/
theorem Valid.eraseAt (h : s.Valid) (slot : Nat) : (s.eraseAt slot).Valid := by
  by_cases hs : slot < s.dense.size
  · constructor
    intro i w hw
    rw [dense_eraseAt, getElem?_swapRemove hs] at hw
    rw [sparse_eraseAt, getElem?_swapRemove hs]
    split at hw
    · rename_i hi
      by_cases hslot : i = slot
      · subst i
        rw [if_pos rfl] at hw
        obtain ⟨hb, -⟩ := Array.getElem?_eq_some_iff.mp (h.leads_back hw)
        simp [hi, hw, hb]
      · rw [if_neg hslot] at hw
        have hp := h.leads_back hw
        split
        · exact hp
        · rename_i moved hm
          split at hm
          · rw [if_pos rfl] at hm
            -- Two values at one index would be led back to one position.
            have hne : index moved ≠ index w := by
              intro he
              have hp' := h.leads_back hm
              rw [he, hp, Option.some.injEq] at hp'
              omega
            rw [Array.getElem?_setIfInBounds_ne hne, hp]
          · cases hm
    · cases hw
  · have hd : swapRemove s.dense slot = s.dense := by
      simp [swapRemove, hs]
    have hn : s.dense[slot]? = none := by
      simpa using hs
    constructor
    intro i w hw
    rw [dense_eraseAt, hd] at hw
    rw [sparse_eraseAt, hd, hn]
    exact h.leads_back hw

theorem toList_eraseAt_perm (hv : s.dense[i]? = some v) :
    s.toList.Perm (v :: (s.eraseAt i).toList) := by
  rw [toList, toList, dense_eraseAt]
  exact toList_swapRemove_perm hv

section

variable [DecidableEq α]

theorem getElem?_of_indexOf? (hi : s.indexOf? v = some i) : s.dense[i]? = some v := by
  simp only [indexOf?] at hi
  split at hi
  · cases hi
  · split at hi
    · cases hi
    · split at hi <;> simp_all

theorem Valid.indexOf?_eq_some_iff (h : s.Valid) :
    s.indexOf? v = some i ↔ s.dense[i]? = some v := by
  refine ⟨getElem?_of_indexOf?, fun hi => ?_⟩
  simp [indexOf?, h.leads_back hi, hi]

theorem Valid.has_iff (h : s.Valid) : s.has v = true ↔ v ∈ s.toList := by
  rw [has, Option.isSome_iff_exists, toList, Array.mem_toList_iff, Array.mem_iff_getElem?]
  simp only [h.indexOf?_eq_some_iff]

theorem Valid.has_eq_false_iff (h : s.Valid) : s.has v = false ↔ v ∉ s.toList := by
  rw [← h.has_iff, Bool.not_eq_true]

theorem Valid.indexOf?_eq_none_iff (h : s.Valid) : s.indexOf? v = none ↔ v ∉ s.toList := by
  rw [← h.has_eq_false_iff, has, Option.isSome_eq_false_iff, Option.isNone_iff_eq_none]

theorem Valid.insert (h : s.Valid) (v : α) : (s.insert v).Valid := by
  simp only [SparseSet.insert]
  split
  · exact h
  · rename_i hv
    exact h.append (by simpa [h.has_iff] using hv)

theorem Valid.toList_insert (h : s.Valid) (v : α) :
    (s.insert v).toList = if v ∈ s.toList then s.toList else s.toList ++ [v] := by
  by_cases hv : v ∈ s.toList
  · rw [SparseSet.insert, if_pos (h.has_iff.mpr hv), if_pos hv]
  · rw [SparseSet.insert, h.has_eq_false_iff.mpr hv, if_neg hv, if_neg Bool.false_ne_true,
      toList_append]

theorem Valid.foldl_insert {vs : List α} (h : s.Valid) (hn : (s.toList ++ vs).Nodup) :
    (vs.foldl (·.insert ·) s).Valid ∧ (vs.foldl (·.insert ·) s).toList = s.toList ++ vs := by
  induction vs generalizing s with
  | nil => exact ⟨h, by simp⟩
  | cons v vs ih =>
    have hv : v ∉ s.toList := fun hv => (List.nodup_append.mp hn).2.2 v hv v (by simp) rfl
    have hl : (s.insert v).toList = s.toList ++ [v] := by
      rw [h.toList_insert, if_neg hv]
    obtain ⟨hvalid, hs⟩ := ih (h.insert v) (by simpa [hl] using hn)
    exact ⟨hvalid, by rw [List.foldl_cons, hs, hl]; simp⟩

theorem Valid.erase (h : s.Valid) (v : α) : (s.erase v).Valid := by
  simp only [SparseSet.erase]
  split
  · exact h
  · exact h.eraseAt _

theorem Valid.erase_of_not_mem (h : s.Valid) (hv : v ∉ s.toList) : s.erase v = s := by
  rw [SparseSet.erase, h.indexOf?_eq_none_iff.mpr hv]

theorem Valid.toList_erase_perm (h : s.Valid) (hv : v ∈ s.toList) :
    s.toList.Perm (v :: (s.erase v).toList) := by
  simp only [SparseSet.erase]
  split
  · rename_i hn
    exact absurd hv (h.indexOf?_eq_none_iff.mp hn)
  · rename_i hi
    exact toList_eraseAt_perm (getElem?_of_indexOf? hi)

theorem Valid.mem_erase (h : s.Valid) : w ∈ (s.erase v).toList ↔ w ∈ s.toList ∧ w ≠ v := by
  by_cases hv : v ∈ s.toList
  · have hp := h.toList_erase_perm hv
    have hn := hp.nodup_iff.mp h.nodup
    rw [hp.mem_iff]
    grind
  · rw [h.erase_of_not_mem hv]
    grind

end

end SparseSet

end TickWorld
