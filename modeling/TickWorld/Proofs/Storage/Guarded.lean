import TickWorld.Proofs.Storage.Listing

namespace TickWorld

def next? (n : Nat) : Option Nat := if n < 0xFFFFFFFFFFFFFFFF then some (n + 1) else none

def sub? (m n : Nat) : Option Nat := if n ≤ m then some (m - n) else none

def write? {α : Type} (xs : Array α) (i : Nat) (x : α) : Option (Array α) :=
  if i < xs.size then some (xs.setIfInBounds i x) else none

def swapRemove? {α : Type} (xs : Array α) (i : Nat) : Option (Array α) :=
  if i < xs.size then some (swapRemove xs i) else none

namespace SparseSet

open SparseIndex (index arrayLimit)

variable {α : Type}

def roomFor? (s : SparseSet α) (i : Nat) : Option (SparseSet α) :=
  if s.capacity ≤ i then (next? i).map s.grow else some s

variable [DecidableEq α] [SparseIndex α]

/-- A call under guard. Room that the allocator refuses is no breach. -/
def Call.guarded : Call α → SparseSet α → Option (Bool × SparseSet α)
  | insert v, s =>
    if s.has v then some (false, s)
    else do
      let s ← s.roomFor? (index v)
      let sparse ← write? s.sparse (index v) s.dense.size
      some (true, ⟨s.dense.push v, sparse⟩)
  | erase v, s =>
    match s.indexOf? v with
    | none => some (false, s)
    | some slot => do
      let dense ← swapRemove? s.dense slot
      match dense[slot]? with
      | none => some (true, ⟨dense, s.sparse⟩)
      | some moved => do
        let sparse ← write? s.sparse (index moved) slot
        some (true, ⟨dense, sparse⟩)
  | clear, s => some (true, s.clear)
  | reserve n, s =>
    if s.capacity < n then do
      let _ ← sub? n s.size
      if arrayLimit α ≤ n then some (false, s)
      else if slotLimit ≤ n then some (false, s)
      else some (true, s.grow n)
    else some (true, s)
  | tryReserve n, s =>
    if s.capacity < n then do
      let _ ← sub? n s.capacity
      if slotLimit ≤ n then some (false, s)
      else do
        let _ ← sub? n s.size
        if arrayLimit α ≤ n then some (false, s) else some (true, s.grow n)
    else some (true, s)
  | clone, s => some (true, s)

/-- The index of a value to be inserted is one that an array of positions can have. -/
def Call.Small : Call α → Prop
  | insert v => index v < slotLimit
  | _ => True

variable {s : SparseSet α} {v : α} {i n : Nat}

omit [DecidableEq α] [SparseIndex α] in
theorem roomFor?_eq (s : SparseSet α) (hi : i < slotLimit) :
    s.roomFor? i = some (s.grow (i + 1)) := by
  rw [roomFor?]
  split
  · rw [slotLimit] at hi
    rw [next?, if_pos (by omega)]
    rfl
  · rename_i hc
    rw [grow_of_le (by omega)]

theorem guarded_insert (s : SparseSet α) (hv : index v < slotLimit) :
    Call.guarded (.insert v) s = some (Call.perform (.insert v) s) := by
  have hlt : index v < (s.grow (index v + 1)).sparse.size := by
    simp only [grow, Array.size_append, Array.size_replicate]
    omega
  rw [Call.guarded, Call.perform_insert]
  split
  · rfl
  · rw [s.roomFor?_eq hv, Option.bind_eq_bind, Option.bind_some, write?, if_pos hlt]
    rfl

omit [DecidableEq α] in
/-- The value that moves was the last one, so its index is one of the index array. -/
theorem Valid.index_moved_lt (h : s.Valid) (hi : i < s.dense.size)
    (hv : (swapRemove s.dense i)[i]? = some v) : index v < s.sparse.size := by
  rw [getElem?_swapRemove hi, if_pos rfl] at hv
  split at hv
  · obtain ⟨hlt, -⟩ := Array.getElem?_eq_some_iff.mp (h.leads_back hv)
    exact hlt
  · cases hv

theorem Valid.guarded_erase (h : s.Valid) (v : α) :
    Call.guarded (.erase v) s = some (Call.perform (.erase v) s) := by
  rw [Call.guarded, Call.perform_erase]
  cases hi : s.indexOf? v with
  | none => rfl
  | some i =>
    obtain ⟨hs, -⟩ := Array.getElem?_eq_some_iff.mp (getElem?_of_indexOf? hi)
    have he : s.eraseAt i = ⟨(s.eraseAt i).dense, (s.eraseAt i).sparse⟩ := rfl
    simp only [swapRemove?, if_pos hs, Option.bind_eq_bind, Option.bind_some]
    rw [he, dense_eraseAt, sparse_eraseAt]
    cases hm : (swapRemove s.dense i)[i]? with
    | none => rfl
    | some moved =>
      simp only [write?, if_pos (h.index_moved_lt hs hm), Option.bind_some]

omit [DecidableEq α] in
theorem Valid.sub?_size (h : s.Valid) (hn : s.capacity < n) :
    sub? n s.size = some (n - s.size) :=
  if_pos (Nat.le_trans h.size_le_capacity (Nat.le_of_lt hn))

theorem Valid.guarded (h : s.Valid) {c : Call α} (hc : c.Small) :
    c.guarded s = some (c.perform s) := by
  cases c with
  | insert v => exact guarded_insert s hc
  | erase v => exact h.guarded_erase v
  | clear => rfl
  | reserve n =>
    rw [Call.guarded, Call.perform, SparseSet.reserve]
    by_cases hn : s.capacity < n
    · rw [if_pos hn, if_pos hn, h.sub?_size hn]
      by_cases ha : arrayLimit α ≤ n
      · simp [ha]
      · by_cases hs : slotLimit ≤ n <;> simp [ha, hs]
    · rw [if_neg hn, if_neg hn]
  | tryReserve n =>
    rw [Call.guarded, Call.perform, SparseSet.tryReserve]
    by_cases hn : s.capacity < n
    · have hsub : sub? n s.capacity = some (n - s.capacity) := if_pos (Nat.le_of_lt hn)
      rw [if_pos hn, if_pos hn, h.sub?_size hn, hsub]
      by_cases hs : slotLimit ≤ n
      · simp [hs]
      · by_cases ha : arrayLimit α ≤ n <;> simp [ha, hs]
    · rw [if_neg hn, if_neg hn]
  | clone => rfl

/-- A set is read and changed as its listing is. -/
structure IsListed (s : SparseSet α) : Prop where
  shows : s.Shows s.listing
  transcript : ∀ cs : List (Call α),
    transcript Call.perform listing s cs = transcript Call.meaning id s.listing cs
  /-- No index and no difference leaves its range. -/
  guarded : ∀ c : Call α, c.Small → c.guarded s = some (c.perform s)
  /-- Positions of absent values change no answer, now or later. -/
  stale : ∀ s' : SparseSet α, s.SamePresent s' → s'.Shows s.listing ∧
    ∀ cs, TickWorld.transcript Call.perform listing s' cs =
      TickWorld.transcript Call.perform listing s cs

theorem Valid.isListed (h : s.Valid) : s.IsListed where
  shows := h.shows
  transcript cs := refines_listing.transcript_eq h cs
  guarded _ hc := h.guarded hc
  stale s' hs := by
    obtain ⟨h', hl⟩ := h.samePresent hs
    refine ⟨hl ▸ h'.shows, fun cs => ?_⟩
    rw [refines_listing.transcript_eq h', refines_listing.transcript_eq h, hl]

omit [DecidableEq α] in
theorem listing_withCapacity (hs : withCapacity n = .ok s) : s.listing = ⟨[], n⟩ := by
  rw [withCapacity_eq_ok hs, listing_grow]
  simp [listing, Listing.grow, empty, toList, capacity]

omit [DecidableEq α] in
theorem exists_withCapacity (hs : n < slotLimit) (ha : n < arrayLimit α) :
    ∃ s : SparseSet α, withCapacity n = .ok s := by
  have hg : (SparseSet.empty : SparseSet α).canGrow n = true := by
    simp [canGrow, hs, ha]
  exact ⟨_, by rw [withCapacity, reserve_eq, if_pos hg]⟩

/-- A new set shows an empty listing, and every set that calls lead to does what they mean for
its listing. -/
theorem set_refines_listing :
    (SparseSet.empty : SparseSet α).listing = ⟨[], 0⟩ ∧
    (∀ n < slotLimit, n < arrayLimit α → ∃ s : SparseSet α, withCapacity n = .ok s) ∧
    (∀ (n : Nat) (s : SparseSet α), withCapacity n = .ok s → s.listing = ⟨[], n⟩) ∧
    ∀ s : SparseSet α, s.Reachable → s.IsListed :=
  ⟨rfl, fun _ hs ha => exists_withCapacity hs ha, fun _ _ hs => listing_withCapacity hs,
    fun _ h => h.valid.isListed⟩

/-- Values of a hundred and twenty-eight bytes, of which no array is as long as the longest arrays
of positions. -/
structure Card where
  number : Nat
deriving DecidableEq

instance : SparseIndex Card where
  index := Card.number
  index_inj h := congrArg Card.mk h
  arrayLimit := slotLimit / 16

/-- Two cards are inserted and erased again, and their positions stay behind. Room for positions
alone is no room: the set stays as it is, and less is given to it later. -/
theorem set_refines_listing_stale :
    ∃ s : SparseSet Card, s.Reachable ∧ s.sparse = #[0, 1] ∧ s.listing = ⟨[], 2⟩ ∧
      s.IsListed ∧ transcript Call.perform listing s [.tryReserve (slotLimit / 2), .tryReserve 3] =
        [⟨.tryReserve (slotLimit / 2), false, ⟨[], 2⟩⟩, ⟨.tryReserve 3, true, ⟨[], 3⟩⟩] := by
  let cs : List (Call Card) := [.insert ⟨0⟩, .insert ⟨1⟩, .erase ⟨1⟩, .erase ⟨0⟩]
  have h : (afterCalls Call.perform SparseSet.empty cs).Reachable :=
    .call _ (.call _ (.call _ (.call _ .empty)))
  have hlisted := set_refines_listing.2.2.2 _ h
  have hlisting : (afterCalls Call.perform SparseSet.empty cs).listing = ⟨[], 2⟩ := by decide
  refine ⟨_, h, by decide, hlisting, hlisted, ?_⟩
  rw [hlisted.transcript, hlisting]
  rfl

end SparseSet

end TickWorld
