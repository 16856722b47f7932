import TickWorld.Drift.Component
import TickWorld.Proofs.Storage.Guarded
import TickWorld.Proofs.Storage.PairList

namespace TickWorld

open ComponentKind (name valueLimit)

variable {κ : Type} [ComponentKind κ] {k : κ}

namespace Pool

def read? (p : Pool k) (e : Entity) : Option (Option (Value k)) :=
  match p.owners.indexOf? e with
  | none => some none
  | some slot => p.values[slot]?.map some

def put? (p : Pool k) (e : Entity) (f : Value k → Value k) : Option (Pool k) :=
  match p.owners.indexOf? e with
  | none => some p
  | some slot => do
    let old ← p.values[slot]?
    let values ← write? p.values slot (f old)
    some { p with values }

/-- A pool with as many owners as values. -/
def even? (p : Pool k) : Option (Pool k) :=
  if p.owners.size = p.values.size then some p else none

def append? (p : Pool k) (e : Entity) (x : Value k) : Option (Except Failure Unit × Pool k) := do
  let requested ← next? e.index
  let (granted, owners) ← SparseSet.Call.guarded (.tryReserve requested) p.owners
  if !granted ∨ valueLimit k ≤ p.size + 1 then
    some (.error (.allocationFailed (name k) requested), { p with owners })
  else do
    let (_, owners) ← SparseSet.Call.guarded (.insert e) owners
    let p ← even? ⟨owners, p.values.push x⟩
    let slot ← sub? p.values.size 1
    let _ ← p.values[slot]?
    some (.ok (), p)

def assign? (p : Pool k) (e : Entity) (x : Value k) : Option (Except Failure Unit × Pool k) :=
  if p.has e then some (.error (.alreadyAssigned e (name k)), p) else p.append? e x

def replace? (p : Pool k) (e : Entity) (x : Value k) :
    Option (Except Failure (Value k) × Pool k) := do
  match ← p.read? e with
  | none => some (.error (.missingComponent e (name k)), p)
  | some old => return (.ok old, ← p.put? e fun _ => x)

def assignOrReplace? (p : Pool k) (e : Entity) (x : Value k) :
    Option (Except Failure Unit × Pool k) :=
  match p.owners.indexOf? e with
  | some _ => return (.ok (), ← p.put? e fun _ => x)
  | none => p.assign? e x

def delete? (p : Pool k) (e : Entity) : Option (Option (Value k) × Pool k) :=
  match p.owners.indexOf? e with
  | none => some (none, p)
  | some slot => do
    let (_, owners) ← SparseSet.Call.guarded (.erase e) p.owners
    let old ← p.values[slot]?
    let values ← swapRemove? p.values slot
    return (some old, ← even? ⟨owners, values⟩)

def reserve? (p : Pool k) (n : Nat) : Option (Except Failure Unit × Pool k) := do
  let (granted, owners) ← SparseSet.Call.guarded (.tryReserve n) p.owners
  if !granted ∨ (p.size < n ∧ valueLimit k ≤ n) then
    some (.error (.allocationFailed (name k) n), { p with owners })
  else some (.ok (), { p with owners })

def index? (p : Pool k) (e : Entity) (f : Value k → Value k) :
    Option (Except Fault (Value k) × Pool k) := do
  match ← p.read? e with
  | none => some (.error (.notOwned e (name k)), p)
  | some old => return (.ok old, ← p.put? e f)

def Call.guarded : (c : Call k) → Pool k → Option (c.Answer × Pool k)
  | assign e x, p => p.assign? e x
  | replace e x, p => p.replace? e x
  | assignOrReplace e x, p => p.assignOrReplace? e x
  | delete e, p => p.delete? e
  | clear, p => some ((), p.clear)
  | reserve n, p => p.reserve? n
  | modify e f, p => return (← p.read? e, ← p.put? e f)
  | index e f, p => p.index? e f
  | map f, p => some (p.pairs, p.map f)
  | overwrite f _, p => some (p.pairs, p.overwrite f)

variable {p : Pool k} {e : Entity} {x : Value k} {i n : Nat}

theorem Valid.lt_size (h : p.Valid) (hi : p.owners.indexOf? e = some i) : i < p.values.size := by
  obtain ⟨hs, -⟩ := Array.getElem?_eq_some_iff.mp (SparseSet.getElem?_of_indexOf? hi)
  rwa [h.aligned]

theorem Valid.even? (h : p.Valid) : p.even? = some p := if_pos h.aligned.symm

theorem Valid.read?_eq (h : p.Valid) (e : Entity) : p.read? e = some (p.get? e) := by
  rw [read?, get?]
  cases hi : p.owners.indexOf? e with
  | none => rfl
  | some i => simp [h.lt_size hi]

theorem Valid.put?_eq (h : p.Valid) (e : Entity) (f : Value k → Value k) :
    p.put? e f = some (p.modify e f) := by
  rw [put?, Pool.modify]
  cases hi : p.owners.indexOf? e with
  | none => rfl
  | some i =>
    have hlt := h.lt_size hi
    have hm : p.values.modify i f = p.values.setIfInBounds i (f p.values[i]) := by
      apply Array.ext_getElem?
      intro j
      rw [Array.getElem?_modify, Array.getElem?_setIfInBounds]
      by_cases hj : i = j
      · subst j
        simp [hlt]
      · simp [hj]
    simp [hlt, write?, hm]

theorem Valid.guarded_tryReserve (h : p.Valid) (n : Nat) :
    SparseSet.Call.guarded (.tryReserve n) p.owners =
      some (if p.owners.canGrow n then (true, p.owners.grow n) else (false, p.owners)) := by
  rw [h.owners.guarded (c := .tryReserve n) trivial, SparseSet.Call.perform,
    SparseSet.tryReserve_eq]

theorem Valid.guarded_push (h : p.Valid) (he : p.has e = false) :
    SparseSet.Call.guarded (.insert e) (p.owners.grow (e.index + 1)) =
      some (true, (p.owners.grow (e.index + 1)).insert e) := by
  have hs : e.index < slotLimit := by
    have := e.index_lt
    rw [slotLimit]
    omega
  have hn : (p.owners.grow (e.index + 1)).has e = false := by
    rw [(h.owners.grow _).has_eq_false_iff]
    exact h.owners.has_eq_false_iff.mp he
  rw [SparseSet.guarded_insert _ hs, SparseSet.Call.perform_insert, SparseSet.insert, hn]
  rfl

theorem Valid.append?_eq (h : p.Valid) (he : p.has e = false) (x : Value k) :
    p.append? e x = some (p.assign e x) := by
  have hn : next? e.index = some (e.index + 1) := by
    have := e.index_lt
    exact if_pos (by omega)
  have hg := p.growFor_fst e
  have ho : (p.growFor e).2 = { p with owners := p.owners.grow (e.index + 1) } :=
    p.growFor_snd e
  simp only [append?, hn, Option.bind_eq_bind, Option.bind_some, h.guarded_tryReserve,
    SparseSet.canGrow_index, if_true, Bool.not_true, Bool.false_eq_true, false_or]
  split at hg
  · rename_i hv
    rw [if_pos hv, assign_of_refused he hg, ho]
  · rename_i hv
    have hp : p.assign e x = _ := assign_of_granted he hg
    have ha := h.assign e x
    rw [hp] at ha
    rw [ho] at hp ha
    rw [if_neg hv, h.guarded_push he, Option.bind_some, ha.even?, Option.bind_some, hp]
    simp [sub?]

theorem Valid.assign?_eq (h : p.Valid) (e : Entity) (x : Value k) :
    p.assign? e x = some (p.assign e x) := by
  rw [assign?]
  cases he : p.has e with
  | true => rw [if_pos rfl, assign_of_has he]
  | false => rw [if_neg Bool.false_ne_true, h.append?_eq he]

theorem Valid.replace?_eq (h : p.Valid) (e : Entity) (x : Value k) :
    p.replace? e x = some (p.replace e x) := by
  rw [replace?, Pool.replace, h.read?_eq, h.put?_eq]
  cases p.get? e <;> rfl

theorem Valid.assignOrReplace?_eq (h : p.Valid) (e : Entity) (x : Value k) :
    p.assignOrReplace? e x = some (p.assignOrReplace e x) := by
  rw [assignOrReplace?, Pool.assignOrReplace, h.put?_eq, h.assign?_eq, has, SparseSet.has]
  cases p.owners.indexOf? e <;> rfl

theorem Valid.delete?_eq (h : p.Valid) (e : Entity) : p.delete? e = some (p.delete e) := by
  rw [delete?, Pool.delete, get?, Pool.erase]
  cases hi : p.owners.indexOf? e with
  | none => rfl
  | some i =>
    have hlt := h.lt_size hi
    have hs : swapRemove? p.values i = some (swapRemove p.values i) := if_pos hlt
    have he := h.erase e
    simp only [Pool.erase, hi] at he
    have hp : SparseSet.Call.perform (.erase e) p.owners = (true, p.owners.eraseAt i) := by
      rw [SparseSet.Call.perform_erase, hi]
    simp only [h.owners.guarded_erase, hp, Array.getElem?_eq_getElem hlt, hs,
      Option.bind_eq_bind, Option.bind_some, he.even?]
    rfl

theorem Valid.reserve?_eq (h : p.Valid) (n : Nat) : p.reserve? n = some (p.reserve n) := by
  rw [reserve?, h.guarded_tryReserve, reserve_eq]
  cases p.owners.canGrow n with
  | true =>
    simp only [if_true, Option.bind_eq_bind, Option.bind_some, Bool.not_true,
      Bool.false_eq_true, false_or]
    split <;> rfl
  | false => rfl

theorem Valid.index?_eq (h : p.Valid) (e : Entity) (f : Value k → Value k) :
    p.index? e f = some (p.get e, p.modify e f) := by
  rw [index?, Pool.get, h.read?_eq, h.put?_eq]
  cases hx : p.get? e with
  | none =>
    have hm : p.modify e f = p := by
      have hn := h.get?_eq_none_iff.mp hx
      rw [Pool.modify, h.owners.indexOf?_eq_none_iff.mpr hn]
    rw [hm]
    rfl
  | some old => rfl

theorem Valid.guarded (h : p.Valid) (c : Call k) : c.guarded p = some (c.perform p) := by
  cases c with
  | assign e x => exact h.assign?_eq e x
  | replace e x => exact h.replace?_eq e x
  | assignOrReplace e x => exact h.assignOrReplace?_eq e x
  | delete e => exact h.delete?_eq e
  | clear => rfl
  | reserve n => exact h.reserve?_eq n
  | modify e f =>
    rw [Call.guarded, h.read?_eq, h.put?_eq]
    rfl
  | index e f => exact h.index?_eq e f
  | map f => rfl
  | overwrite f hf => rfl

/-- A pool is read and changed as its list of pairs is. -/
structure IsPaired (p : Pool k) : Prop where
  shows : p.Shows p.pairList
  transcript : ∀ cs : List (Call k),
    transcript Call.perform pairList p cs = transcript Call.meaning id p.pairList cs
  readsBack : p.ReadsBack
  /-- No slot leaves its range, and owners and values never differ in number. -/
  guarded : ∀ c : Call k, c.guarded p = some (c.perform p)

theorem Valid.isPaired (h : p.Valid) : p.IsPaired where
  shows := h.shows
  transcript cs := refines_pairList.transcript_eq h cs
  readsBack := h.readsBack
  guarded := h.guarded

theorem pairList_withCapacity (hp : withCapacity n = .ok p) : p.pairList = ⟨[], n⟩ := by
  rw [withCapacity_eq_ok hp]
  simp [pairList, pairs, capacity, SparseSet.empty, SparseSet.toList,
    SparseSet.grow, SparseSet.capacity]

/-- A new pool shows no pairs, and every pool that calls lead to does what they mean for its
pairs. -/
theorem pool_refines_pairs :
    (Pool.empty : Pool k).pairList = ⟨[], 0⟩ ∧
    (∀ (n : Nat) (p : Pool k), withCapacity n = .ok p → p.pairList = ⟨[], n⟩) ∧
    ∀ p : Pool k, p.Reachable → p.IsPaired :=
  ⟨rfl, fun _ _ hp => pairList_withCapacity hp, fun _ h => h.valid.isPaired⟩

/-- The last of three pairs moves into the place of the first; the first owner's position stays
behind and leads to it. -/
theorem pool_refines_pairs_moved :
    ∃ p : Pool (Drift.Kind.health : Drift.Kind Empty), p.Reachable ∧ p.owners.sparse[0]? = some 0 ∧
      p.pairList.pairs = [(⟨2⟩, .full 3), (⟨1⟩, .full 2)] ∧ p.IsPaired := by
  let cs : List (Call (Drift.Kind.health : Drift.Kind Empty)) :=
    [.assign ⟨0⟩ (.full 1), .assign ⟨1⟩ (.full 2), .assign ⟨2⟩ (.full 3), .delete ⟨0⟩]
  have h : (afterCalls Call.perform Pool.empty cs).Reachable :=
    .call _ (.call _ (.call _ (.call _ .empty)))
  exact ⟨_, h, by decide +kernel, rfl, pool_refines_pairs.2.2 _ h⟩

end Pool

end TickWorld
