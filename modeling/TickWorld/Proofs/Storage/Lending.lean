import TickWorld.Proofs.Storage.Layout

namespace TickWorld

open ComponentKind (name)

variable {κ : Type} [ComponentKind κ]

/-- The pools of a table while some of them are lent. -/
structure Split (κ : Type) [ComponentKind κ] where
  slots : List (κ × Nat)
  /-- The pool in each slot, unless it is lent. -/
  pools : Array (Option (AnyPool κ))

/-- The table with none of its pools lent. -/
def Pools.split (t : Pools κ) : Split κ := ⟨t.slots, t.pools.map some⟩

variable [DecidableEq κ]

namespace Split

/-- Lends the pool of a kind, and tells the slot that it has left. It has left this slot before it
is known to be a pool of the kind. -/
def take (x : Split κ) (k : κ) : Except Failure (Nat × Pool k) × Split κ :=
  match x.slots.lookup k with
  | none => (.error (.unregisteredComponent (name k)), x)
  | some slot =>
    match x.pools[slot]?.join with
    | none => (.error (.duplicateComponent (name k)), x)
    | some p =>
      let x := { x with pools := x.pools.setIfInBounds slot none }
      match p.cast? k with
      | none => (.error (.unregisteredComponent (name k)), x)
      | some p => (.ok (slot, p), x)

/-- The slots of the pools lent to requests for some kinds, made one after the other. A refusal
ends nothing. -/
def lentSlots (x : Split κ) : List κ → List Nat
  | [] => []
  | k :: ks =>
    match x.take k with
    | (.error _, x) => x.lentSlots ks
    | (.ok (slot, _), x) => slot :: x.lentSlots ks

def afterTaking (x : Split κ) (ks : List κ) : Split κ := ks.foldl (fun x k => (x.take k).2) x

def borrow (x : Split κ) : (q : List κ) → Except Failure (Row Pool q)
  | [] => .ok .nil
  | k :: q =>
    match x.take k with
    | (.error cause, _) => .error cause
    | (.ok (_, p), x) =>
      match x.borrow q with
      | .error cause => .error cause
      | .ok rest => .ok (.cons p rest)

end Split

namespace Pools

/-- The answer to a request for the pool of a kind after some kinds have been asked for. -/
def lends (t : Pools κ) (asked : List κ) (k : κ) : Except Failure (Nat × Pool k) :=
  match t.slot? k, t.get? k with
  | some slot, some p =>
    if k ∈ asked then .error (.duplicateComponent (name k)) else .ok (slot, p)
  | _, _ => .error (.unregisteredComponent (name k))

structure Lent (t : Pools κ) (asked : List κ) (x : Split κ) : Prop where
  slots : x.slots = t.slots
  pools : ∀ slot : Nat, x.pools[slot]? =
    t.pools[slot]?.map fun p : AnyPool κ => if p.kind ∈ asked then none else some p

variable {t : Pools κ} {asked asked' ks q : List κ} {k : κ} {x : Split κ} {slot : Nat}

theorem lent_split (t : Pools κ) : t.Lent [] t.split where
  slots := rfl
  pools := by simp [split]

theorem Lent.of_mem_iff (hx : t.Lent asked x) (h : ∀ k, k ∈ asked ↔ k ∈ asked') :
    t.Lent asked' x where
  slots := hx.slots
  pools := by simpa only [h] using hx.pools

theorem Valid.take_lent (h : t.Valid) (hx : t.Lent asked x) (k : κ) :
    (x.take k).1 = t.lends asked k ∧ t.Lent (k :: asked) (x.take k).2 := by
  have hlookup : x.slots.lookup k = t.slot? k := by
    rw [hx.slots, slot?]
  rw [Split.take, hlookup, lends]
  cases hs : t.slot? k with
  | none =>
    refine ⟨rfl, hx.slots, fun slot => ?_⟩
    rw [hx.pools]
    cases hp : t.pools[slot]? with
    | none => rfl
    | some p =>
      have hk : p.kind ≠ k := by
        rintro rfl
        cases (h.slot?_kind hp).symm.trans hs
      simp [hk]
  | some slot =>
    obtain ⟨p, hp⟩ := h.slot?_iff.mp hs
    have hget : t.get? k = some p := h.get?_eq_some_iff.mpr ⟨slot, hp⟩
    have hslot : x.pools[slot]?.join = if k ∈ asked then none else some ⟨k, p⟩ := by
      rw [hx.pools, hp]
      rfl
    simp only [hget, hslot]
    by_cases hk : k ∈ asked
    · simp only [hk, if_true, true_and]
      exact hx.of_mem_iff fun j => by simp +contextual [hk]
    · simp only [hk, if_false, AnyPool.cast?_self, true_and]
      refine ⟨hx.slots, fun i => ?_⟩
      rw [Array.getElem?_setIfInBounds, hx.pools]
      by_cases hi : slot = i
      · subst hi
        have hin : slot < x.pools.size := by
          by_contra hout
          have hnone := Array.getElem?_eq_none (Nat.le_of_not_lt hout)
          rw [hx.pools, hp] at hnone
          cases hnone
        simp [hp, hin]
      · rw [if_neg hi]
        cases hj : t.pools[i]? with
        | none => rfl
        | some p' =>
          -- The pool in another slot is of another kind.
          have hne : p'.kind ≠ k := by
            rintro rfl
            exact hi (Option.some.inj (hs.symm.trans (h.slot?_kind hj)))
          simp [hne]

theorem Valid.lent_afterTaking (h : t.Valid) (hx : t.Lent asked x) (ks : List κ) :
    t.Lent (ks.reverse ++ asked) (x.afterTaking ks) := by
  induction ks generalizing asked x with
  | nil => exact hx
  | cons k ks ih =>
    have hrest := ih (h.take_lent hx k).2
    rwa [List.append_cons, ← List.reverse_cons] at hrest

/-- Whatever was asked for before, a request is answered from the slot of the kind. -/
theorem Valid.take_afterTaking (h : t.Valid) (ks : List κ) (k : κ) :
    ((t.split.afterTaking ks).take k).1 = t.lends ks k := by
  have hx : t.Lent ks (t.split.afterTaking ks) :=
    (h.lent_afterTaking t.lent_split ks).of_mem_iff fun j => by simp
  exact (h.take_lent hx k).1

theorem lends_eq_ok {p : Pool k} (hl : t.lends asked k = .ok (slot, p)) :
    t.slot? k = some slot ∧ t.get? k = some p ∧ k ∉ asked := by
  rw [lends] at hl
  split at hl
  · rename_i hs hp
    split at hl
    · cases hl
    · rename_i hk
      cases hl
      exact ⟨hs, hp, hk⟩
  · cases hl

theorem Valid.nodup_lentSlots (h : t.Valid) (hx : t.Lent asked x) (ks : List κ) :
    (x.lentSlots ks).Nodup ∧
      ∀ slot ∈ x.lentSlots ks, ∃ k, t.slot? k = some slot ∧ k ∉ asked := by
  induction ks generalizing asked x with
  | nil => exact ⟨List.nodup_nil, fun slot hs => by cases hs⟩
  | cons k ks ih =>
    obtain ⟨ha, hx'⟩ := h.take_lent hx k
    obtain ⟨hn, hm⟩ := ih hx'
    have hrest : ∀ slot ∈ (x.take k).2.lentSlots ks, ∃ k', t.slot? k' = some slot ∧ k' ∉ asked := by
      intro slot hs
      obtain ⟨k', hs', hk'⟩ := hm slot hs
      exact ⟨k', hs', fun hin => hk' (List.mem_cons_of_mem _ hin)⟩
    rw [Split.lentSlots]
    rcases htake : x.take k with ⟨_ | ⟨slot, p⟩, x'⟩
    · rw [htake] at hn hrest
      exact ⟨hn, hrest⟩
    · rw [htake] at hn hm hrest ha
      obtain ⟨hslot, -, hk⟩ := lends_eq_ok ha.symm
      refine ⟨List.nodup_cons.mpr ⟨?_, hn⟩, List.forall_mem_cons.mpr ⟨⟨k, hslot, hk⟩, hrest⟩⟩
      intro hin
      obtain ⟨k', hs', hk'⟩ := hm slot hin
      cases h.slot?_inj hslot hs'
      exact hk' List.mem_cons_self

theorem Valid.claim_lent (h : t.Valid) (hx : t.Lent asked x) (q : List κ) :
    (x.borrow q).map (fun _ => ()) = t.claim asked q := by
  induction q generalizing asked x with
  | nil => rfl
  | cons k q ih =>
    obtain ⟨ha, hx'⟩ := h.take_lent hx k
    have hrest := ih hx'
    rw [Split.borrow, claim, contains]
    rcases htake : x.take k with ⟨answer, x'⟩
    rw [htake, lends] at ha
    rw [htake] at hrest
    cases hs : t.slot? k with
    | none =>
      simp only [hs] at ha
      rw [ha]
      rfl
    | some slot =>
      obtain ⟨p, hp⟩ := h.slot?_iff.mp hs
      rw [hs, h.get?_eq_some_iff.mpr ⟨slot, hp⟩] at ha
      by_cases hk : k ∈ asked
      · simp only [hk, if_true] at ha
        rw [ha, if_pos hk]
        rfl
      · simp only [hk, if_false] at ha
        rw [ha, if_neg hk, ← hrest]
        cases hq : x'.borrow q with
        | error cause => simp [hq, Except.map]
        | ok rest => simp [hq, Except.map]

end Pools

end TickWorld
