import TickWorld.Proofs.Storage.Listing
import TickWorld.Proofs.Storage.Pool

namespace TickWorld

open ComponentKind (name valueLimit)

theorem lookup_zip {α β : Type} [DecidableEq α] (l : List α) (m : List β) (a : α) :
    (l.zip m).lookup a = (l.idxOf? a).bind (m[·]?) := by
  induction l generalizing m with
  | nil => simp
  | cons b l ih =>
    cases m with
    | nil => simp
    | cons y m =>
      rw [List.zip_cons_cons, List.lookup_cons, List.idxOf?_cons]
      by_cases hb : b = a
      · subst b
        simp
      · have hb' : (a == b) = false := by simpa using Ne.symm hb
        have hb'' : (b == a) = false := by simpa using hb
        rw [hb', hb'', ih]
        cases l.idxOf? a <;> simp

theorem getElem?_moveLast {α : Type} (l : List α) (i j : Nat) :
    (moveLast l i)[j]? =
      if j < l.length - 1 then if j = i then l[l.length - 1]? else l[j]? else none := by
  rw [moveLast, List.getLast?_eq_getElem?]
  cases hl : l[l.length - 1]? with
  | none =>
    have hn : l.length ≤ l.length - 1 := List.getElem?_eq_none_iff.mp hl
    have h0 : ¬ j < l.length - 1 := by omega
    simp [h0]
  | some last =>
    simp only [List.getElem?_dropLast, List.length_set, List.getElem?_set]
    by_cases hj : j < l.length - 1
    · by_cases hi : j = i
      · subst i
        simp [hj, Nat.lt_of_lt_of_le hj (Nat.sub_le _ _)]
      · simp [hj, hi, Ne.symm hi]
    · simp [hj]

theorem moveLast_zip {α β : Type} {l : List α} {m : List β} (h : m.length = l.length) (i : Nat) :
    moveLast (l.zip m) i = (moveLast l i).zip (moveLast m i) := by
  have hn : (l.zip m).length = l.length := by
    rw [List.length_zip, h, Nat.min_self]
  apply List.ext_getElem?
  intro j
  rw [getElem?_moveLast, hn]
  simp only [List.zip, List.getElem?_zipWith, getElem?_moveLast, h]
  split
  · split <;> rfl
  · rfl

variable {κ : Type} [ComponentKind κ] {k : κ}

/-- Pairs in their order, and a bound that all entity numbers in them are below. -/
@[ext] structure PairList (k : κ) where
  pairs : List (Entity × Value k)
  capacity : Nat

namespace PairList

def keys (d : PairList k) : List Entity := d.pairs.map Prod.fst

def get? (d : PairList k) (e : Entity) : Option (Value k) := d.pairs.lookup e

def grow (d : PairList k) (n : Nat) : PairList k := { d with capacity := max d.capacity n }

def map (d : PairList k) (f : Entity → Value k → Value k) : PairList k :=
  { d with pairs := d.pairs.map fun q => (q.1, f q.1 q.2) }

def modify (d : PairList k) (e : Entity) (f : Value k → Value k) : PairList k :=
  d.map fun e' x => if e' = e then f x else x

def overwrite (d : PairList k) (f : List (Entity × Value k) → List (Value k)) : PairList k :=
  { d with pairs := d.keys.zip (f d.pairs) }

/-- Appends a pair unless the entity is present. Room for one more value may be refused after room
for the entity was made. -/
def assign (d : PairList k) (e : Entity) (x : Value k) : Except Failure Unit × PairList k :=
  if e ∈ d.keys then (.error (.alreadyAssigned e (name k)), d)
  else if valueLimit k ≤ d.pairs.length + 1 then
    (.error (.allocationFailed (name k) (e.index + 1)), d.grow (e.index + 1))
  else (.ok (), { d.grow (e.index + 1) with pairs := d.pairs ++ [(e, x)] })

def replace (d : PairList k) (e : Entity) (x : Value k) :
    Except Failure (Value k) × PairList k :=
  match d.get? e with
  | none => (.error (.missingComponent e (name k)), d)
  | some old => (.ok old, d.modify e fun _ => x)

def assignOrReplace (d : PairList k) (e : Entity) (x : Value k) :
    Except Failure Unit × PairList k :=
  if e ∈ d.keys then (.ok (), d.modify e fun _ => x) else d.assign e x

def delete (d : PairList k) (e : Entity) : Option (Value k) × PairList k :=
  match d.keys.idxOf? e with
  | none => (none, d)
  | some i => (d.get? e, { d with pairs := moveLast d.pairs i })

def reserve (d : PairList k) (n : Nat) : Except Failure Unit × PairList k :=
  if n ≤ d.capacity ∨ n < slotLimit then
    if d.pairs.length < n ∧ valueLimit k ≤ n then
      (.error (.allocationFailed (name k) n), d.grow n)
    else (.ok (), d.grow n)
  else (.error (.allocationFailed (name k) n), d)

end PairList

namespace Pool

variable (k) in
/-- What can be done to a pool. -/
inductive Call where
  | assign (e : Entity) (x : Value k)
  | replace (e : Entity) (x : Value k)
  | assignOrReplace (e : Entity) (x : Value k)
  | delete (e : Entity)
  | clear
  | reserve (n : Nat)
  /-- Writes to the value of an entity, if it owns one. -/
  | modify (e : Entity) (f : Value k → Value k)
  /-- Writes to the value that an entity is known to own. -/
  | index (e : Entity) (f : Value k → Value k)
  /-- Writes to every value while visiting the pairs in their order. -/
  | map (f : Entity → Value k → Value k)
  /-- Writes to the values all at once, knowing all pairs. -/
  | overwrite (f : List (Entity × Value k) → List (Value k)) (same : ∀ l, (f l).length = l.length)

def Call.Answer : Call k → Type
  | assign .. => Except Failure Unit
  | replace .. => Except Failure (Value k)
  | assignOrReplace .. => Except Failure Unit
  | delete .. => Option (Value k)
  | clear => Unit
  | reserve .. => Except Failure Unit
  | modify .. => Option (Value k)
  | index .. => Except Fault (Value k)
  | map .. => List (Entity × Value k)
  | overwrite .. => List (Entity × Value k)

def overwrite (p : Pool k) (f : List (Entity × Value k) → List (Value k)) : Pool k :=
  { p with values := (f p.pairs).toArray }

def Call.perform : (c : Call k) → Pool k → c.Answer × Pool k
  | assign e x, p => p.assign e x
  | replace e x, p => p.replace e x
  | assignOrReplace e x, p => p.assignOrReplace e x
  | delete e, p => p.delete e
  | clear, p => ((), p.clear)
  | reserve n, p => p.reserve n
  | modify e f, p => (p.get? e, p.modify e f)
  | index e f, p => (p.get e, p.modify e f)
  | map f, p => (p.pairs, p.map f)
  | overwrite f _, p => (p.pairs, p.overwrite f)

def Call.meaning : (c : Call k) → PairList k → c.Answer × PairList k
  | assign e x, d => d.assign e x
  | replace e x, d => d.replace e x
  | assignOrReplace e x, d => d.assignOrReplace e x
  | delete e, d => d.delete e
  | clear, d => ((), { d with pairs := [] })
  | reserve n, d => d.reserve n
  | modify e f, d => (d.get? e, d.modify e f)
  | index e f, d =>
    (match d.get? e with
      | some x => .ok x
      | none => .error (.notOwned e (name k)),
      d.modify e f)
  | map f, d => (d.pairs, d.map f)
  | overwrite f _, d => (d.pairs, d.overwrite f)

inductive Reachable : Pool k → Prop where
  | empty : Reachable Pool.empty
  | withCapacity {n : Nat} {p : Pool k} : Pool.withCapacity n = .ok p → Reachable p
  | call {p : Pool k} (c : Call k) : Reachable p → Reachable (c.perform p).2

def pairList (p : Pool k) : PairList k := ⟨p.pairs, p.capacity⟩

variable {p : Pool k} {e : Entity} {x : Value k} {i n : Nat}

theorem Valid.keys_pairList (h : p.Valid) : p.pairList.keys = p.entities := by
  have hl : p.owners.toList.length ≤ p.values.toList.length := by
    simp [SparseSet.toList, h.aligned]
  exact List.map_fst_zip hl

theorem Valid.mem_keys_iff (h : p.Valid) : e ∈ p.pairList.keys ↔ p.has e = true := by
  rw [h.keys_pairList, h.has_iff]

theorem Valid.map_snd_pairs (h : p.Valid) : p.pairs.map Prod.snd = p.values.toList := by
  have hl : p.values.toList.length ≤ p.owners.toList.length := by
    simp [SparseSet.toList, h.aligned]
  exact List.map_snd_zip hl

theorem Valid.length_pairs (h : p.Valid) : p.pairs.length = p.size := by
  rw [← List.length_map Prod.snd, h.map_snd_pairs, Array.length_toList, size]

theorem Valid.get?_eq_lookup (h : p.Valid) (e : Entity) : p.get? e = p.pairList.get? e := by
  rw [PairList.get?, pairList, pairs, lookup_zip, get?, h.owners.indexOf?_eq]
  cases p.owners.toList.idxOf? e with
  | none => rfl
  | some i => simp

theorem getElem?_pairs (p : Pool k) (i : Nat) :
    p.pairs[i]? = some (e, x) ↔ p.owners.dense[i]? = some e ∧ p.values[i]? = some x := by
  rw [pairs, List.getElem?_zip_eq_some, SparseSet.toList, Array.getElem?_toList,
    Array.getElem?_toList]

theorem pairList_map (p : Pool k) (f : Entity → Value k → Value k) :
    (p.map f).pairList = p.pairList.map f := by
  have hp : (p.map f).pairs = p.pairs.map fun q => (q.1, f q.1 q.2) := by
    apply List.ext_getElem?
    intro i
    ext ⟨e, y⟩
    rw [getElem?_pairs, List.getElem?_map, Option.map_eq_some_iff]
    simp only [Pool.map, Array.getElem?_mapIdx, Option.map_eq_some_iff, Prod.exists,
      getElem?_pairs, Prod.mk.injEq]
    constructor
    · intro hx
      obtain ⟨he, x, hx, hy⟩ := hx
      rw [he] at hy
      exact ⟨e, x, ⟨he, hx⟩, rfl, hy⟩
    · intro hx
      obtain ⟨e', x, ⟨he, hx⟩, rfl, hy⟩ := hx
      refine ⟨he, x, hx, ?_⟩
      rw [he]
      exact hy
  exact congrArg (PairList.mk · p.capacity) hp

theorem Valid.modify_eq_map (h : p.Valid) (e : Entity) (f : Value k → Value k) :
    p.modify e f = p.map fun e' x => if e' = e then f x else x := by
  have hv : (p.modify e f).values = (p.map fun e' x => if e' = e then f x else x).values := by
    apply Array.ext_getElem?
    intro j
    simp only [Pool.modify, Pool.map, Array.getElem?_mapIdx]
    cases hj : p.owners.dense[j]? with
    | none =>
      have hn : p.values[j]? = none := by
        rw [Array.getElem?_eq_none_iff] at hj ⊢
        rwa [h.aligned]
      cases p.owners.indexOf? e <;> simp [Array.getElem?_modify, hn]
    | some e' =>
      rw [← h.owners.indexOf?_eq_some_iff] at hj
      by_cases he : e' = e
      · subst e'
        simp [hj, Array.getElem?_modify]
      · have hne : p.owners.indexOf? e ≠ some j := by
          intro hi
          rw [h.owners.indexOf?_eq_some_iff] at hi hj
          exact he (Option.some.inj (hj.symm.trans hi))
        cases hi : p.owners.indexOf? e with
        | none => simp [he]
        | some i =>
          have hij : i ≠ j := fun hij => hne (hij ▸ hi)
          simp [he, Array.getElem?_modify, hij]
  calc p.modify e f = ⟨(p.modify e f).owners, (p.modify e f).values⟩ := rfl
    _ = p.map fun e' x => if e' = e then f x else x := by rw [p.owners_modify, hv]; rfl

theorem Valid.pairList_modify (h : p.Valid) (e : Entity) (f : Value k → Value k) :
    (p.modify e f).pairList = p.pairList.modify e f := by
  rw [h.modify_eq_map, pairList_map]
  rfl

theorem Valid.pairList_overwrite (h : p.Valid) (f : List (Entity × Value k) → List (Value k)) :
    (p.overwrite f).pairList = p.pairList.overwrite f := by
  rw [PairList.overwrite, h.keys_pairList]
  rfl

theorem Valid.overwrite (h : p.Valid) {f : List (Entity × Value k) → List (Value k)}
    (hf : ∀ l, (f l).length = l.length) : (p.overwrite f).Valid := by
  refine ⟨h.owners, ?_⟩
  rw [Pool.overwrite, List.size_toArray, hf, h.length_pairs, size, h.aligned]

theorem capacity_grow (s : SparseSet Entity) (n : Nat) :
    (s.grow n).capacity = max s.capacity n :=
  congrArg Listing.capacity (s.listing_grow n)

theorem withCapacity_eq_ok (hp : withCapacity n = .ok p) :
    p = { owners := SparseSet.empty.grow n } := by
  simp only [withCapacity] at hp
  split at hp
  · cases hp
  · rename_i owners ho
    split at hp
    · cases hp
    · cases hp
      rw [SparseSet.withCapacity_eq_ok ho]

theorem pairList_reserve (h : p.Valid) (n : Nat) :
    (p.reserve n).1 = (p.pairList.reserve n).1 ∧
      (p.reserve n).2.pairList = (p.pairList.reserve n).2 := by
  have hc : p.owners.canGrow n = true ↔ n ≤ p.pairList.capacity ∨ n < slotLimit :=
    SparseSet.canGrow_iff
  have hl : p.pairList.pairs.length = p.size := h.length_pairs
  have hg : ({ p with owners := p.owners.grow n } : Pool k).pairList = p.pairList.grow n :=
    congrArg (PairList.mk p.pairs) (capacity_grow p.owners n)
  simp only [reserve_eq, PairList.reserve, hc, hl]
  split
  · split
    · exact ⟨rfl, hg⟩
    · exact ⟨rfl, hg⟩
  · exact ⟨rfl, rfl⟩

theorem Valid.pairList_push (h : p.Valid) (he : p.has e = false) (x : Value k) :
    (⟨(p.owners.grow (e.index + 1)).insert e, p.values.push x⟩ : Pool k).pairList =
      { p.pairList.grow (e.index + 1) with pairs := p.pairs ++ [(e, x)] } := by
  have hn : (p.owners.grow (e.index + 1)).has e = false := by
    rw [(h.owners.grow _).has_eq_false_iff]
    exact h.owners.has_eq_false_iff.mp he
  have hl : p.owners.toList.length = p.values.toList.length := by
    simp [SparseSet.toList, h.aligned]
  have ha := (p.owners.grow (e.index + 1)).listing_append e
  have hc := congrArg Listing.capacity ha
  simp only [SparseSet.listing, capacity_grow, SparseIndex.index, Nat.max_assoc,
    Nat.max_self] at hc
  rw [SparseSet.insert, hn, if_neg Bool.false_ne_true, pairList, pairs, Array.toList_push,
    SparseSet.toList_append, capacity, hc]
  exact congrArg (PairList.mk · _) (List.zip_append hl)

theorem Valid.pairList_assign (h : p.Valid) (e : Entity) (x : Value k) :
    (p.assign e x).1 = (p.pairList.assign e x).1 ∧
      (p.assign e x).2.pairList = (p.pairList.assign e x).2 := by
  have hl : p.pairList.pairs.length = p.size := h.length_pairs
  rw [PairList.assign, hl]
  cases hp : p.has e with
  | true =>
    rw [assign_of_has hp, if_pos (h.mem_keys_iff.mpr hp)]
    exact ⟨rfl, rfl⟩
  | false =>
    have hk : e ∉ p.pairList.keys := by
      rw [h.mem_keys_iff, hp]
      exact Bool.false_ne_true
    rw [if_neg hk]
    have hg := p.growFor_fst e
    split at hg
    · rename_i hv
      rw [assign_of_refused hp hg, if_pos hv, growFor_snd]
      exact ⟨rfl, congrArg (PairList.mk p.pairs) (capacity_grow p.owners _)⟩
    · rename_i hv
      rw [assign_of_granted hp hg, if_neg hv]
      refine ⟨rfl, ?_⟩
      rw [growFor_snd]
      exact h.pairList_push hp x

theorem Valid.pairList_replace (h : p.Valid) (e : Entity) (x : Value k) :
    (p.replace e x).1 = (p.pairList.replace e x).1 ∧
      (p.replace e x).2.pairList = (p.pairList.replace e x).2 := by
  rw [Pool.replace, PairList.replace, h.get?_eq_lookup]
  cases p.pairList.get? e with
  | none => exact ⟨rfl, rfl⟩
  | some old => exact ⟨rfl, h.pairList_modify e _⟩

theorem Valid.pairList_assignOrReplace (h : p.Valid) (e : Entity) (x : Value k) :
    (p.assignOrReplace e x).1 = (p.pairList.assignOrReplace e x).1 ∧
      (p.assignOrReplace e x).2.pairList = (p.pairList.assignOrReplace e x).2 := by
  simp only [Pool.assignOrReplace, PairList.assignOrReplace, h.mem_keys_iff]
  split
  · exact ⟨rfl, h.pairList_modify e _⟩
  · exact h.pairList_assign e x

theorem Valid.pairList_erase (h : p.Valid) (hi : p.owners.indexOf? e = some i) :
    (p.erase e).pairList = { p.pairList with pairs := moveLast p.pairs i } := by
  obtain ⟨hs, -⟩ := Array.getElem?_eq_some_iff.mp (SparseSet.getElem?_of_indexOf? hi)
  have hv : i < p.values.size := by rwa [h.aligned]
  have hl : p.values.toList.length = p.owners.toList.length := by
    simp [SparseSet.toList, h.aligned]
  have ho := SparseSet.listing_eraseAt hs
  have hc : (p.erase e).capacity = p.capacity := by
    rw [capacity, owners_erase, SparseSet.capacity_erase, capacity]
  have hp : (p.erase e).pairs = moveLast p.pairs i := by
    simp only [Pool.erase, hi]
    rw [pairs, pairs, moveLast_zip hl, toList_swapRemove_eq_moveLast hv]
    exact congrArg (fun d : Listing Entity => d.values.zip _) ho
  rw [pairList, hc, hp]
  rfl

theorem Valid.pairList_delete (h : p.Valid) (e : Entity) :
    (p.delete e).1 = (p.pairList.delete e).1 ∧
      (p.delete e).2.pairList = (p.pairList.delete e).2 := by
  rw [Pool.delete, PairList.delete, h.keys_pairList, entities, ← h.owners.indexOf?_eq]
  cases hi : p.owners.indexOf? e with
  | none =>
    constructor
    · simp only [get?, hi]
    · simp only [Pool.erase, hi]
  | some i => exact ⟨h.get?_eq_lookup e, h.pairList_erase hi⟩

theorem Valid.perform (h : p.Valid) (c : Call k) : (c.perform p).2.Valid := by
  cases c with
  | assign e x => exact h.assign e x
  | replace e x => exact h.replace e x
  | assignOrReplace e x => exact h.assignOrReplace e x
  | delete e => exact h.erase e
  | clear => exact valid_clear p
  | reserve n => exact h.reserve n
  | modify e f => exact h.modify e f
  | index e f => exact h.modify e f
  | map f => exact h.map f
  | overwrite f hf => exact h.overwrite hf

/-- A valid pool does to its list of pairs what the calls mean. -/
theorem refines_pairList :
    Refines (A := Call.Answer) (Valid (k := k)) pairList Call.perform Call.meaning := by
  have hstep (c : Call k) {p : Pool k} (h : p.Valid) :
      (c.perform p).1 = (c.meaning p.pairList).1 ∧
        (c.perform p).2.pairList = (c.meaning p.pairList).2 := by
    cases c with
    | assign e x => exact h.pairList_assign e x
    | replace e x => exact h.pairList_replace e x
    | assignOrReplace e x => exact h.pairList_assignOrReplace e x
    | delete e => exact h.pairList_delete e
    | clear => exact ⟨rfl, rfl⟩
    | reserve n => exact pairList_reserve h n
    | modify e f => exact ⟨h.get?_eq_lookup e, h.pairList_modify e f⟩
    | index e f =>
      refine ⟨?_, h.pairList_modify e f⟩
      simp only [Call.perform, Call.meaning, get, h.get?_eq_lookup]
      rfl
    | map f => exact ⟨rfl, pairList_map p f⟩
    | overwrite f hf => exact ⟨rfl, h.pairList_overwrite f⟩
  exact ⟨fun c _ h => h.perform c, fun c _ h => (hstep c h).1, fun c _ h => (hstep c h).2⟩

theorem Reachable.valid (h : p.Reachable) : p.Valid := by
  induction h with
  | empty => exact valid_empty
  | @withCapacity n p hp =>
    rw [withCapacity_eq_ok hp]
    exact ⟨SparseSet.valid_empty.grow n, rfl⟩
  | call c _ ih => exact ih.perform c

structure Shows (p : Pool k) (d : PairList k) : Prop where
  nodup : d.keys.Nodup
  index_lt : ∀ e ∈ d.keys, e.index < d.capacity
  owners : p.owners.size = d.pairs.length
  values : p.values.toList = d.pairs.map Prod.snd
  entities : p.entities = d.keys
  pairs : p.pairs = d.pairs
  get? : ∀ e, p.get? e = d.get? e
  get : ∀ e x, p.get e = .ok x ↔ (e, x) ∈ d.pairs
  has : ∀ e, p.has e = decide (e ∈ d.keys)
  size : p.size = d.pairs.length
  isEmpty : p.isEmpty = d.pairs.isEmpty
  capacity : p.capacity = d.capacity

theorem Valid.mem_pairs_iff (h : p.Valid) : (e, x) ∈ p.pairs ↔ p.get? e = some x := by
  simp only [List.mem_iff_getElem?, getElem?_pairs, h.get?_eq_some_iff]

theorem Valid.shows (h : p.Valid) : p.Shows p.pairList where
  nodup := by
    rw [h.keys_pairList]
    exact h.owners.nodup
  index_lt e he := by
    rw [h.keys_pairList] at he
    exact h.owners.index_lt he
  owners := by
    have hl : p.pairList.pairs.length = p.size := h.length_pairs
    rw [hl, size, h.aligned, SparseSet.size]
  values := h.map_snd_pairs.symm
  entities := h.keys_pairList.symm
  pairs := rfl
  get? := h.get?_eq_lookup
  get e x := by
    have hm := h.mem_pairs_iff (e := e) (x := x)
    rw [get, pairList, hm]
    cases p.get? e <;> simp
  has e := by
    rw [Bool.eq_iff_iff, decide_eq_true_eq, h.mem_keys_iff]
  size := h.length_pairs.symm
  isEmpty := by
    have hl : p.pairList.pairs.length = p.size := h.length_pairs
    rw [Bool.eq_iff_iff, isEmpty, Array.isEmpty_iff_size_eq_zero, List.isEmpty_iff_length_eq_zero,
      hl, size]
  capacity := rfl

def Call.Spares (e : Entity) : Call k → Prop
  | assign e' _ | replace e' _ | assignOrReplace e' _ | delete e' | modify e' _ | index e' _ =>
    e' ≠ e
  | clear => False
  | reserve _ => True
  | map f => ∀ x, f e x = x
  | overwrite f _ => ∀ (l : List (Entity × Value k)) (i : Nat) (x : Value k),
    l[i]? = some (e, x) → (f l)[i]? = some x

/-- What was written for an entity is what is read for it, until it is written to again; where its
pair stands meanwhile does not matter. -/
structure ReadsBack (p : Pool k) : Prop where
  assigned : ∀ e x, (p.assign e x).1 = .ok () → (p.assign e x).2.get? e = some x
  replaced : ∀ e x old, (p.replace e x).1 = .ok old →
    p.get? e = some old ∧ (p.replace e x).2.get? e = some x
  stored : ∀ e x, (p.assignOrReplace e x).1 = .ok () →
    (p.assignOrReplace e x).2.get? e = some x
  deleted : ∀ e, (p.delete e).1 = p.get? e ∧ (p.delete e).2.get? e = none
  modified : ∀ e f, (p.modify e f).get? e = (p.get? e).map f
  mapped : ∀ e f, (p.map f).get? e = (p.get? e).map (f e)
  overwritten : ∀ (f : List (Entity × Value k) → List (Value k)),
    (∀ l, (f l).length = l.length) → ∀ (i : Nat) (e : Entity) (x : Value k),
    p.pairs[i]? = some (e, x) → (p.overwrite f).get? e = (f p.pairs)[i]?
  spared : ∀ e (cs : List (Call k)), (∀ c ∈ cs, c.Spares e) →
    (afterCalls Call.perform p cs).get? e = p.get? e

theorem Valid.get?_assign_of_ok (h : p.Valid) (ha : (p.assign e x).1 = .ok ()) :
    (p.assign e x).2.get? e = some x := by
  cases hp : p.has e with
  | true =>
    rw [assign_of_has hp] at ha
    cases ha
  | false =>
    cases hg : (p.growFor e).1 with
    | error cause =>
      rw [assign_of_refused hp hg] at ha
      cases ha
    | ok => rw [h.get?_assign hp hg, if_pos rfl]

theorem Valid.get?_replace_of_ok {old : Value k} (h : p.Valid)
    (hr : (p.replace e x).1 = .ok old) :
    p.get? e = some old ∧ (p.replace e x).2.get? e = some x := by
  rw [Pool.replace] at hr ⊢
  cases hx : p.get? e with
  | none =>
    rw [hx] at hr
    cases hr
  | some y =>
    rw [hx] at hr
    cases hr
    refine ⟨rfl, ?_⟩
    rw [h.get?_modify, if_pos rfl, hx]
    rfl

theorem Valid.get?_assignOrReplace_of_ok (h : p.Valid)
    (ha : (p.assignOrReplace e x).1 = .ok ()) :
    (p.assignOrReplace e x).2.get? e = some x := by
  rw [Pool.assignOrReplace] at ha ⊢
  cases hp : p.has e with
  | true =>
    rw [if_pos rfl, h.get?_modify, if_pos rfl]
    rw [← h.isSome_get?, Option.isSome_iff_exists] at hp
    obtain ⟨y, hy⟩ := hp
    rw [hy]
    rfl
  | false =>
    rw [hp, if_neg Bool.false_ne_true] at ha
    rw [if_neg Bool.false_ne_true, h.get?_assign_of_ok ha]

theorem Valid.get?_overwrite (h : p.Valid) (f : List (Entity × Value k) → List (Value k))
    (hi : p.pairs[i]? = some (e, x)) : (p.overwrite f).get? e = (f p.pairs)[i]? := by
  obtain ⟨he, -⟩ := (getElem?_pairs p i).mp hi
  rw [← h.owners.indexOf?_eq_some_iff] at he
  simp only [Pool.overwrite, get?, he, List.getElem?_toArray]

theorem Valid.get?_perform_of_spares (h : p.Valid) {c : Call k} (hc : c.Spares e) :
    (c.perform p).2.get? e = p.get? e := by
  cases c with
  | assign e' y => exact h.get?_assign_of_ne (Ne.symm hc) y
  | replace e' y => exact h.get?_replace_of_ne (Ne.symm hc) y
  | assignOrReplace e' y => exact h.get?_assignOrReplace_of_ne (Ne.symm hc) y
  | delete e' => exact (h.get?_erase e' e).trans (if_neg (Ne.symm hc))
  | clear => exact hc.elim
  | reserve n => exact h.get?_reserve n e
  | modify e' f => exact (h.get?_modify e' e f).trans (if_neg (Ne.symm hc))
  | index e' f => exact (h.get?_modify e' e f).trans (if_neg (Ne.symm hc))
  | map f =>
    have hf : f e = id := funext hc
    calc (p.map f).get? e = (p.get? e).map (f e) := h.get?_map f e
      _ = p.get? e := by rw [hf, Option.map_id, id]
  | overwrite f hf =>
    cases hx : p.get? e with
    | none =>
      have hn : e ∉ (p.overwrite f).entities := h.get?_eq_none_iff.mp hx
      exact (h.overwrite hf).get?_eq_none_iff.mpr hn
    | some y =>
      obtain ⟨i, hi⟩ := List.mem_iff_getElem?.mp (h.mem_pairs_iff.mpr hx)
      calc (p.overwrite f).get? e = (f p.pairs)[i]? := h.get?_overwrite f hi
        _ = some y := hc _ i y hi

theorem Valid.get?_afterCalls (h : p.Valid) {cs : List (Call k)} (hc : ∀ c ∈ cs, c.Spares e) :
    (afterCalls Call.perform p cs).get? e = p.get? e := by
  induction cs generalizing p with
  | nil => rfl
  | cons c cs ih =>
    have hs := ih (h.perform c) fun c' hc' => hc c' (List.mem_cons_of_mem c hc')
    exact hs.trans (h.get?_perform_of_spares (hc c List.mem_cons_self))

theorem Valid.readsBack (h : p.Valid) : p.ReadsBack where
  assigned _ _ ha := h.get?_assign_of_ok ha
  replaced _ _ _ hr := h.get?_replace_of_ok hr
  stored _ _ ha := h.get?_assignOrReplace_of_ok ha
  deleted e := ⟨rfl, (h.get?_erase e e).trans (if_pos rfl)⟩
  modified e f := (h.get?_modify e e f).trans (if_pos rfl)
  mapped e f := h.get?_map f e
  overwritten f _ _ _ _ hi := h.get?_overwrite f hi
  spared _ _ hc := h.get?_afterCalls hc

end Pool

end TickWorld
