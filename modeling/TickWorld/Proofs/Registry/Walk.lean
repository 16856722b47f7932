import TickWorld.Proofs.Registry.Invariant
import TickWorld.Proofs.Storage.Visit

namespace TickWorld

variable {κ : Type} [DecidableEq κ] [ComponentKind κ]

namespace Registry

variable {r : Registry κ} {q : List κ}

def rows (r : Registry κ) (q : List κ) : List (Entity × Row Value q) := r.pools.rows q r.entities

/-- A walk over the live entities hands out the rows and stores what is written for them. -/
theorem Valid.forEach_eq (h : r.Valid) {σ : Type}
    (f : σ → Entity → Row Value q → σ × Row Value q) (s : σ)
    (hc : r.pools.claim [] q = .ok ()) :
    r.forEach q f s =
      ⟨((r.rows q).length, (walk f s (r.rows q)).1),
        { r with pools := r.pools.storeRows (walk f s (r.rows q)).2 }, #[]⟩ := by
  have hw := h.pools.foldl_visit_eq (f := f) h.live.nodup 0 s
  rw [Nat.zero_add, SparseSet.toList, Array.foldl_toList] at hw
  simp only [Registry.forEach, hc]
  rw [hw]
  rfl

theorem Valid.forEach (h : r.Valid) {σ : Type}
    (f : σ → Entity → Row Value q → σ × Row Value q) (s : σ)
    (hc : r.pools.claim [] q = .ok ()) :
    (r.forEach q f s).result =
        ((r.rows q).length, (r.rows q).foldl (fun s x => (f s x.1 x.2).1) s) ∧
      ∃ t : Pools κ, t.Valid ∧ r.pools.Alike t ∧
        (r.forEach q f s).state = { r with pools := t } := by
  rw [h.forEach_eq f s hc, walk_fst]
  exact ⟨rfl, _, h.pools.storeRows, h.pools.alike_storeRows, rfl⟩

end Registry

structure Query.Views (x : Query κ q) (r : Registry κ) : Prop where
  live : x.live = r.live
  pools : x.pools.Valid
  alike : r.pools.Alike x.pools
  claimed : r.pools.claim [] q = .ok ()

variable {r : Registry κ} {q : List κ} {x : Query κ q}

theorem Registry.Valid.views_query (h : r.Valid) (hx : r.query q = .ok x) :
    x.Views r ∧ x.pools = r.pools := by
  simp only [query] at hx
  split at hx
  · cases hx
  · rename_i hc
    cases hx
    exact ⟨⟨rfl, h.pools, .refl _, hc⟩, rfl⟩

/-- The entities that own all kinds of the query, each with its row. -/
def Query.rows (x : Query κ q) : List (Entity × Row Value q) := x.pools.rows q x.live.toList

theorem Query.Views.forEach_eq (hx : x.Views r) (h : r.Valid) {σ : Type}
    (f : σ → Entity → Row Value q → σ × Row Value q) (s : σ) :
    x.forEach f s = ((walk f s x.rows).1,
      { x with pools := x.pools.storeRows (walk f s x.rows).2 }) := by
  have hn : x.live.toList.Nodup := by
    rw [hx.live]
    exact h.live.nodup
  have hw := hx.pools.foldl_visit_eq (f := f) hn 0 s
  rw [Nat.zero_add, SparseSet.toList, Array.foldl_toList] at hw
  rw [Query.forEach, hw]
  rfl

theorem Query.Views.forEach (hx : x.Views r) (h : r.Valid) {σ : Type}
    (f : σ → Entity → Row Value q → σ × Row Value q) (s : σ) :
    (x.forEach f s).1 = x.rows.foldl (fun s x => (f s x.1 x.2).1) s ∧
      (x.forEach f s).2.Views r := by
  rw [hx.forEach_eq h, walk_fst]
  exact ⟨rfl, hx.live, hx.pools.storeRows, hx.alike.trans hx.pools.alike_storeRows, hx.claimed⟩

theorem Query.Views.run (hx : x.Views r) (h : r.Valid) (w : Query.Write q) :
    (w.run x).Views r := by
  cases w with
  | modify e f =>
    simp only [Query.Write.run]
    split
    · exact hx
    · exact ⟨hx.live, hx.pools.store e _, hx.alike.trans (hx.pools.alike_store e _), hx.claimed⟩
  | forEach f s => exact (hx.forEach h f s).2

theorem Query.Views.after (hx : x.Views r) (h : r.Valid) (ws : List (Query.Write q)) :
    (x.after ws).Views r := by
  induction ws generalizing x with
  | nil => exact hx
  | cons w ws ih => exact ih (hx.run h w)

/-- Every action keeps the invariant. -/
theorem Registry.Valid.run (h : r.Valid) (a : Action κ) : (a.run r).Valid := by
  cases a with
  | command c => exact h.perform c
  | deleteOwned e q => exact h.deleteOwned e q
  | reserve n =>
    simp only [Action.run]
    split
    · rename_i hr
      exact (h.reserve hr).1
    · exact h
  | reservePool k n => exact h.reservePool k n
  | forEach q f s =>
    cases hc : r.pools.claim [] q with
    | error cause =>
      simp only [Action.run, Registry.forEach, hc]
      exact h
    | ok =>
      obtain ⟨-, t, ht, -, hs⟩ := h.forEach f s hc
      simp only [Action.run]
      rw [hs]
      exact h.withPools ht
  | query q ws =>
    simp only [Action.run]
    split
    · rename_i x hx
      exact h.withPools ((h.views_query hx).1.after h ws).pools
    · exact h
  | writePool k w => exact h.modifyPool k w

theorem Registry.Reachable.valid (h : r.Reachable) : r.Valid := by
  induction h with
  | ofSizing hr => exact valid_ofSizing hr
  | act a _ ih => exact ih.run a

end TickWorld
