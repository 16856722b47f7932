import TickWorld.Proofs.Storage.Rows

namespace TickWorld

open ComponentKind (name)

variable {κ : Type} [DecidableEq κ] [ComponentKind κ] {σ : Type} {q : List κ}

/-- Hands rows out one after the other. The answers are carried along as a state, and what is to be
written is collected. -/
def walk (f : σ → Entity → Row Value q → σ × Row Value q) (s : σ) :
    List (Entity × Row Value q) → σ × List (Entity × Row Value q)
  | [] => (s, [])
  | (e, row) :: ys =>
    let (s, row) := f s e row
    let (s, written) := walk f s ys
    (s, (e, row) :: written)

section

variable {f : σ → Entity → Row Value q → σ × Row Value q} {ys : List (Entity × Row Value q)} {s : σ}

omit [DecidableEq κ] in
theorem walk_cons (y : Entity × Row Value q) :
    walk f s (y :: ys) = ((walk f (f s y.1 y.2).1 ys).1,
      (y.1, (f s y.1 y.2).2) :: (walk f (f s y.1 y.2).1 ys).2) := rfl

omit [DecidableEq κ] in
theorem walk_fst : (walk f s ys).1 = ys.foldl (fun s y => (f s y.1 y.2).1) s := by
  induction ys generalizing s with
  | nil => rfl
  | cons y ys ih => exact ih

omit [DecidableEq κ] in
theorem map_fst_walk : (walk f s ys).2.map Prod.fst = ys.map Prod.fst := by
  induction ys generalizing s with
  | nil => rfl
  | cons y ys ih => exact congrArg (y.1 :: ·) ih

omit [DecidableEq κ] in
theorem walk_snd_of_same {g : Entity → Row Value q → Row Value q}
    (hg : ∀ s e row, (f s e row).2 = g e row) :
    (walk f s ys).2 = ys.map fun y => (y.1, g y.1 y.2) := by
  induction ys generalizing s with
  | nil => rfl
  | cons y ys ih => rw [walk_cons, List.map_cons, ih, hg]

end

namespace Pools

variable {t t' : Pools κ} {e : Entity} {k : κ} {ys : List (Entity × Row Value q)}

def storeRows (t : Pools κ) (ys : List (Entity × Row Value q)) : Pools κ :=
  ys.foldl (fun t y => t.store y.1 y.2) t

theorem Valid.storeRows (h : t.Valid) : (t.storeRows ys).Valid := by
  induction ys generalizing t with
  | nil => exact h
  | cons y ys ih => exact ih (h.store y.1 y.2)

theorem Valid.alike_storeRows (h : t.Valid) : t.Alike (t.storeRows ys) := by
  induction ys generalizing t with
  | nil => exact .refl t
  | cons y ys ih => exact (h.alike_store y.1 y.2).trans (ih (h.store y.1 y.2))

theorem Valid.value?_storeRows (h : t.Valid) (hk : e ∉ ys.map Prod.fst ∨ k ∉ q) :
    (t.storeRows ys).value? e k = t.value? e k := by
  induction ys generalizing t with
  | nil => rfl
  | cons y ys ih =>
    rw [List.map_cons, List.mem_cons, not_or] at hk
    refine (ih (h.store y.1 y.2) (hk.imp_left And.right)).trans ?_
    rcases hk with hk | hk
    · exact h.value?_store_of_ne y.2 hk.1 k
    · exact h.value?_store_of_not_mem y.1 e y.2 hk

theorem Valid.fetch_storeRows (h : t.Valid) (hq : q.Nodup) (hn : (ys.map Prod.fst).Nodup)
    (ho : ∀ y ∈ ys, ∃ old : Row Value q, t.fetch y.1 q = .ok old) :
    ∀ y ∈ ys, (t.storeRows ys).fetch y.1 q = .ok y.2 := by
  induction ys generalizing t with
  | nil => simp
  | cons y ys ih =>
    rw [List.map_cons, List.nodup_cons] at hn
    have hs := h.store y.1 y.2
    intro y' hy'
    rcases List.mem_cons.mp hy' with rfl | hy'
    · obtain ⟨old, hold⟩ := ho y' List.mem_cons_self
      rw [Pools.storeRows, List.foldl_cons, ← Pools.storeRows,
        fetch_congr fun k _ => hs.value?_storeRows (.inl hn.1), h.fetch_store hq hold]
    · apply ih hs hn.2 _ y' hy'
      intro z hz
      have hne : z.1 ≠ y.1 := by
        intro he
        exact hn.1 (he ▸ List.mem_map_of_mem hz)
      rw [fetch_congr fun k _ => h.value?_store_of_ne y.2 hne k]
      exact ho z (List.mem_cons_of_mem y hz)

/-- The pools stand where they stood, and each has the owners that it had. -/
structure Revalued (t t' : Pools κ) : Prop where
  slots : t'.slots = t.slots
  owners : (t'.pools.map fun p => (p.kind, p.pool.owners)) =
    t.pools.map fun p => (p.kind, p.pool.owners)

omit [DecidableEq κ] in
theorem Revalued.trans {t'' : Pools κ} (h : t.Revalued t') (h' : t'.Revalued t'') :
    t.Revalued t'' :=
  ⟨h'.slots.trans h.slots, h'.owners.trans h.owners⟩

theorem revalued_modify (t : Pools κ) {g : Pool k → Pool k} (hg : ∀ p, (g p).owners = p.owners) :
    t.Revalued (t.modify k g) := by
  rw [Pools.modify]
  cases t.slot? k with
  | none => exact ⟨rfl, rfl⟩
  | some slot =>
    refine ⟨rfl, ?_⟩
    apply Array.ext_getElem?
    intro i
    rw [Array.getElem?_map, Array.getElem?_map, Array.getElem?_modify]
    split
    · cases t.pools[i]? with
      | none => rfl
      | some p =>
        simp only [Option.map_some]
        cases hp : p.cast? k with
        | none => rfl
        | some p' =>
          rw [AnyPool.cast?_eq_some_iff] at hp
          subst hp
          simp only [hg]
    · rfl

theorem revalued_store (t : Pools κ) (e : Entity) (row : Row Value q) :
    t.Revalued (t.store e row) := by
  induction row generalizing t with
  | nil => exact ⟨rfl, rfl⟩
  | cons value rest ih =>
    apply Revalued.trans (t.revalued_modify fun p => p.owners_modify e _)
    exact ih _

theorem revalued_storeRows (t : Pools κ) (ys : List (Entity × Row Value q)) :
    t.Revalued (t.storeRows ys) := by
  induction ys generalizing t with
  | nil => exact ⟨rfl, rfl⟩
  | cons y ys ih => exact (t.revalued_store y.1 y.2).trans (ih _)

variable {f : σ → Entity → Row Value q → σ × Row Value q} {es : List Entity}

/-- A walk over distinct entities visits those that own all kinds, in order and each with the row
that it had at the start, and stores what is written for them. -/
theorem Valid.foldl_visit_eq (h : t.Valid) (hn : es.Nodup) (n : Nat) (s : σ) :
    es.foldl (visit q f) (n, s, t) =
      (n + (t.rows q es).length, (walk f s (t.rows q es)).1,
        t.storeRows (walk f s (t.rows q es)).2) := by
  induction es generalizing n s t with
  | nil => rfl
  | cons e es ih =>
    rw [List.nodup_cons] at hn
    rw [List.foldl_cons, visit, rows, List.filterMap_cons]
    cases hf : t.fetch e q with
    | error cause => exact ih h hn.2 n s
    | ok row =>
      -- Those that are still to be visited are other entities, so their rows are as before.
      have hr : (t.store e (f s e row).2).rows q es = t.rows q es := by
        apply rows_congr
        intro e' he' k _
        have hne : e' ≠ e := fun he => hn.1 (he ▸ he')
        exact h.value?_store_of_ne _ hne k
      have hw := ih (h.store e (f s e row).2) hn.2 (n + 1) (f s e row).1
      rw [hr, Nat.add_assoc, Nat.add_comm 1] at hw
      exact hw

theorem Valid.nodup_rows (h : t.Valid) (hn : es.Nodup) : ((t.rows q es).map Prod.fst).Nodup := by
  rw [h.map_fst_rows]
  exact hn.filter _

theorem Valid.value?_walk (h : t.Valid) (s : σ)
    (hk : e ∉ es ∨ k ∉ q ∨ ∀ row, t.fetch e q ≠ .ok row) :
    (t.storeRows (walk f s (t.rows q es)).2).value? e k = t.value? e k := by
  apply h.value?_storeRows
  rw [map_fst_walk, List.mem_map]
  rcases hk with he | hk | hf
  · left
    rintro ⟨y, hy, rfl⟩
    exact he (mem_rows.mp hy).1
  · exact .inr hk
  · left
    rintro ⟨y, hy, rfl⟩
    exact hf y.2 (mem_rows.mp hy).2

theorem Valid.fetch_walk (h : t.Valid) (hq : q.Nodup) (hn : es.Nodup) (s : σ) :
    ∀ y ∈ (walk f s (t.rows q es)).2,
      (t.storeRows (walk f s (t.rows q es)).2).fetch y.1 q = .ok y.2 := by
  apply h.fetch_storeRows hq
  · rw [map_fst_walk]
    exact h.nodup_rows hn
  · intro y hy
    have hm := List.mem_map_of_mem (f := Prod.fst) hy
    rw [map_fst_walk, List.mem_map] at hm
    obtain ⟨z, hz, he⟩ := hm
    rw [← he]
    exact ⟨z.2, (mem_rows.mp hz).2⟩

end Pools

end TickWorld
