import TickWorld.Proofs.Storage.Guarded
import TickWorld.Proofs.Storage.PairList

namespace TickWorld

variable {κ : Type} [ComponentKind κ] {k : κ}

namespace PairList

/-- The same pairs, and room for the same numbers is refused. -/
structure Alike (d d' : PairList k) : Prop where
  pairs : d'.pairs = d.pairs
  room : ∀ n, n ≤ d'.capacity ∨ n < slotLimit ↔ n ≤ d.capacity ∨ n < slotLimit

variable {d d' : PairList k} {n : Nat}

theorem alike_grow (hn : n ≤ d.capacity ∨ n < slotLimit) : d.Alike (d.grow n) := by
  refine ⟨rfl, fun m => ?_⟩
  simp only [grow]
  omega

theorem Alike.grow (h : d.Alike d') (n : Nat) : (d.grow n).Alike (d'.grow n) := by
  refine ⟨h.pairs, fun m => ?_⟩
  have hm := h.room m
  simp only [PairList.grow]
  omega

theorem Alike.withPairs (h : d.Alike d') (l : List (Entity × Value k)) :
    ({ d with pairs := l } : PairList k).Alike { d' with pairs := l } := ⟨rfl, h.room⟩

theorem Alike.keys (h : d.Alike d') : d'.keys = d.keys := congrArg (List.map Prod.fst) h.pairs

theorem Alike.get? (h : d.Alike d') (e : Entity) : d'.get? e = d.get? e :=
  congrArg (List.lookup e) h.pairs

theorem Alike.assign (h : d.Alike d') (e : Entity) (x : Value k) :
    (d'.assign e x).1 = (d.assign e x).1 ∧ (d.assign e x).2.Alike (d'.assign e x).2 := by
  rw [PairList.assign, PairList.assign, h.keys, h.pairs]
  split
  · exact ⟨rfl, h⟩
  · split
    · exact ⟨rfl, h.grow _⟩
    · exact ⟨rfl, (h.grow _).withPairs _⟩

theorem Alike.map (h : d.Alike d') (f : Entity → Value k → Value k) :
    (d.map f).Alike (d'.map f) := by
  rw [PairList.map, PairList.map, h.pairs]
  exact h.withPairs _

theorem Alike.modify (h : d.Alike d') (e : Entity) (f : Value k → Value k) :
    (d.modify e f).Alike (d'.modify e f) := h.map _

theorem Alike.reserve (h : d.Alike d') (n : Nat) :
    (d'.reserve n).1 = (d.reserve n).1 ∧ (d.reserve n).2.Alike (d'.reserve n).2 := by
  simp only [PairList.reserve, h.room, h.pairs]
  split
  · split
    · exact ⟨rfl, h.grow n⟩
    · exact ⟨rfl, h.grow n⟩
  · exact ⟨rfl, h⟩

theorem Alike.meaning (h : d.Alike d') (c : Pool.Call k) :
    (c.meaning d').1 = (c.meaning d).1 ∧ (c.meaning d).2.Alike (c.meaning d').2 := by
  cases c with
  | assign e x => exact h.assign e x
  | replace e x =>
    rw [Pool.Call.meaning, Pool.Call.meaning, PairList.replace, PairList.replace, h.get?]
    cases d.get? e with
    | none => exact ⟨rfl, h⟩
    | some old => exact ⟨rfl, h.modify e fun _ => x⟩
  | assignOrReplace e x =>
    rw [Pool.Call.meaning, Pool.Call.meaning, PairList.assignOrReplace, PairList.assignOrReplace,
      h.keys]
    split
    · exact ⟨rfl, h.modify e fun _ => x⟩
    · exact h.assign e x
  | delete e =>
    rw [Pool.Call.meaning, Pool.Call.meaning, PairList.delete, PairList.delete, h.keys, h.get?,
      h.pairs]
    cases d.keys.idxOf? e with
    | none => exact ⟨rfl, h⟩
    | some i => exact ⟨rfl, h.withPairs _⟩
  | clear => exact ⟨rfl, h.withPairs []⟩
  | reserve n => exact h.reserve n
  | modify e f => exact ⟨h.get? e, h.modify e f⟩
  | index e f =>
    rw [Pool.Call.meaning, Pool.Call.meaning, h.get?]
    exact ⟨rfl, h.modify e f⟩
  | map f => exact ⟨h.pairs, h.map f⟩
  | overwrite f hf =>
    rw [Pool.Call.meaning, Pool.Call.meaning, PairList.overwrite, PairList.overwrite, h.keys,
      h.pairs]
    exact ⟨rfl, h.withPairs _⟩

end PairList

namespace Pool

variable {p p' : Pool k} {e : Entity} {n : Nat} {c : Call k} {cause : Failure}

theorem transcript_eq_of_alike (h : p.Valid) (h' : p'.Valid) (ha : p.pairList.Alike p'.pairList)
    (cs : List (Call k)) :
    transcript Call.perform pairs p' cs = transcript Call.perform pairs p cs := by
  induction cs generalizing p p' with
  | nil => rfl
  | cons c cs ih =>
    obtain ⟨hanswer, hnext⟩ := ha.meaning c
    rw [← refines_pairList.answer c h, ← refines_pairList.answer c h'] at hanswer
    rw [← refines_pairList.observed c h, ← refines_pairList.observed c h'] at hnext
    have hpairs : (c.perform p').2.pairs = (c.perform p).2.pairs := hnext.pairs
    rw [transcript, transcript, hanswer, hpairs, ih (h.perform c) (h'.perform c) hnext]

def Call.Refused (p : Pool k) (cause : Failure) : Call k → Prop
  | assign e x => (p.assign e x).1 = .error cause
  | replace e x => (p.replace e x).1 = .error cause
  | assignOrReplace e x => (p.assignOrReplace e x).1 = .error cause
  | reserve n => (p.reserve n).1 = .error cause
  | _ => False

/-- Below which number there is room for entities before a call asks for room for values. -/
def Call.headway (p : Pool k) : Call k → Nat
  | assign e _ | assignOrReplace e _ => if p.has e then 0 else e.index + 1
  | reserve n => if p.owners.canGrow n then n else 0
  | _ => 0

theorem grow_zero (p : Pool k) : { p with owners := p.owners.grow 0 } = p := by
  rw [SparseSet.grow_of_le (Nat.zero_le _)]

theorem headway_le (p : Pool k) (c : Call k) :
    c.headway p ≤ p.capacity ∨ c.headway p < slotLimit := by
  have hindex (e : Entity) : e.index + 1 < slotLimit := by
    have he := e.index_lt
    have hlimit : slotLimit = 0x1000000000000000 := rfl
    omega
  have hentity (e : Entity) : (if p.has e then 0 else e.index + 1) ≤ p.capacity ∨
      (if p.has e then 0 else e.index + 1) < slotLimit := by
    split
    · exact .inl (Nat.zero_le _)
    · exact .inr (hindex e)
  cases c with
  | assign e x => exact hentity e
  | assignOrReplace e x => exact hentity e
  | reserve n =>
    simp only [Call.headway]
    split
    · rename_i hn
      exact SparseSet.canGrow_iff.mp hn
    · exact .inl (Nat.zero_le _)
  | _ => exact .inl (Nat.zero_le _)

theorem assign_eq_of_refused {x : Value k} (hr : (p.assign e x).1 = .error cause) :
    (p.assign e x).2 = { p with owners := p.owners.grow (if p.has e then 0 else e.index + 1) } := by
  cases hp : p.has e with
  | true => rw [assign_of_has hp, if_pos rfl, grow_zero]
  | false =>
    cases hg : (p.growFor e).1 with
    | ok =>
      rw [assign_of_granted hp hg] at hr
      cases hr
    | error cause' => rw [assign_of_refused hp hg, growFor_snd, if_neg Bool.false_ne_true]

/-- A refused call makes room for entity numbers at most. -/
theorem perform_of_refused (hr : c.Refused p cause) :
    (c.perform p).2 = { p with owners := p.owners.grow (c.headway p) } := by
  cases c with
  | assign e x => exact assign_eq_of_refused hr
  | replace e x =>
    simp only [Call.Refused, Pool.replace] at hr
    simp only [Call.perform, Call.headway, Pool.replace, grow_zero]
    split at hr
    · rfl
    · cases hr
  | assignOrReplace e x =>
    simp only [Call.Refused, Pool.assignOrReplace] at hr
    simp only [Call.perform, Call.headway, Pool.assignOrReplace]
    cases hp : p.has e with
    | true =>
      rw [hp, if_pos rfl] at hr
      cases hr
    | false =>
      rw [hp, if_neg Bool.false_ne_true] at hr
      have ha := assign_eq_of_refused hr
      rw [hp] at ha
      exact ha
  | reserve n =>
    simp only [Call.perform, Call.headway, reserve_eq]
    split
    · rfl
    · rw [grow_zero]
  | delete e => exact hr.elim
  | clear => exact hr.elim
  | modify e f => exact hr.elim
  | index e f => exact hr.elim
  | map f => exact hr.elim
  | overwrite f hf => exact hr.elim

/-- A refused call leaves all pairs, and whatever is called later is answered as if it had not been
made. The capacity has grown by the room for entity numbers, if that was more than there was. -/
theorem refused_call_keeps_pairs (h : p.Reachable) (hr : c.Refused p cause) :
    (c.perform p).2.entities = p.entities ∧ (c.perform p).2.values = p.values ∧
      (∀ cs, transcript Call.perform pairs (c.perform p).2 cs =
        transcript Call.perform pairs p cs) ∧
      (c.perform p).2.capacity = max p.capacity (c.headway p) ∧
      (c.headway p ≤ p.capacity → (c.perform p).2 = p) := by
  have hroom := headway_le p c
  have hvalid := h.valid.perform c
  have hlist : (c.perform p).2.pairList = p.pairList.grow (c.headway p) := by
    rw [perform_of_refused hr]
    exact congrArg (PairList.mk p.pairs) (capacity_grow p.owners _)
  have halike : p.pairList.Alike (c.perform p).2.pairList := by
    rw [hlist]
    exact PairList.alike_grow hroom
  refine ⟨?_, ?_, transcript_eq_of_alike h.valid hvalid halike, ?_, ?_⟩
  · rw [perform_of_refused hr]
    rfl
  · rw [perform_of_refused hr]
  · rw [perform_of_refused hr]
    exact capacity_grow p.owners _
  · intro hle
    have hsame : p.owners.grow (c.headway p) = p.owners := SparseSet.grow_of_le hle
    rw [perform_of_refused hr, hsame]

/-- A kind with values so large that no array has room for `2 ^ 17` of them. -/
inductive Bulky where
  | tile
deriving DecidableEq

instance : ComponentKind Bulky where
  Value _ := Unit
  name _ := "Tile"
  valueLimit _ := 0x20000

/-- A new pool has room for no entity number. After a refused reservation it has room for as many
as were asked for, but for no more values than before. -/
theorem refused_call_keeps_pairs_bulky :
    ∃ (p : Pool Bulky.tile) (cause : Failure), p.Reachable ∧
      (Call.reserve 0x20000).Refused p cause ∧ p.capacity = 0 ∧
      ((Call.reserve 0x20000).perform p).2.capacity = 0x20000 ∧
      ((Call.reserve 0x20000).perform p).2.entities = p.entities := by
  let p : Pool Bulky.tile := .empty
  have hp : p.Reachable := .empty
  have hr : (Call.reserve 0x20000).Refused p (.allocationFailed "Tile" 0x20000) := by
    rw [Call.Refused]
    decide +kernel
  have hway : (Call.reserve 0x20000).headway p = 0x20000 := by decide +kernel
  obtain ⟨hentities, -, -, hcapacity, -⟩ := refused_call_keeps_pairs hp hr
  rw [hway] at hcapacity
  exact ⟨p, _, hp, hr, rfl, hcapacity, hentities⟩

end Pool

end TickWorld
