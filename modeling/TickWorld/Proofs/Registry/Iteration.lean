import TickWorld.Proofs.Registry.Roll

namespace TickWorld

variable {κ : Type} [DecidableEq κ] [ComponentKind κ] {q : List κ}

def Row.Reads (find : Profile κ) : {q : List κ} → Row Value q → Prop
  | [], .nil => True
  | k :: _, .cons value rest => find k = some value ∧ rest.Reads find

theorem Pools.fetch_eq_ok_iff {t : Pools κ} {e : Entity} {row : Row Value q} :
    t.fetch e q = .ok row ↔ row.Reads (t.value? e) := by
  induction row with
  | nil => exact ⟨fun _ => trivial, fun _ => rfl⟩
  | cons value rest ih => rw [fetch_cons_eq_ok_iff, ih, Row.Reads]

namespace Registry

variable {r r' : Registry κ} {σ : Type} {f : σ → Entity → Row Value q → σ × Row Value q}

/-- The live entities that own all kinds of a list, once each and in registry order, with their
components. -/
structure Presents (r : Registry κ) (rows : List (Entity × Row Value q)) : Prop where
  entities : rows.map Prod.fst = r.selection q
  nodup : (rows.map Prod.fst).Nodup
  reads : ∀ y ∈ rows, y.2.Reads (r.get? y.1)

/-- Some entities have other components of some kinds; all else is as it was, where it was. -/
structure Rewritten (r : Registry κ) (ys : List (Entity × Row Value q)) (r' : Registry κ) :
    Prop where
  live : r'.live = r.live
  recycled : r'.recycled = r.recycled
  issued : r'.issued = r.issued
  sizing : r'.sizing = r.sizing
  pools : r.pools.Revalued r'.pools
  written : ∀ y ∈ ys, y.2.Reads (r'.get? y.1)
  kept : ∀ e k, e ∉ ys.map Prod.fst ∨ k ∉ q →
    r'.get? e k = r.get? e k ∧ r'.pools.value? e k = r.pools.value? e k

/-- A walk of the registry goes over the rows, and replaces them by what is written. -/
def WalksOver (r : Registry κ) (rows : List (Entity × Row Value q)) : Prop :=
  ∀ {σ : Type} (f : σ → Entity → Row Value q → σ × Row Value q) (s : σ),
    (r.forEach q f s).result = (rows.length, (walk f s rows).1) ∧
      r.Rewritten (walk f s rows).2 (r.forEach q f s).state

end Registry

/-- A walk through a query goes over the rows, and replaces them by what is written. -/
def Query.WalksOver (x : Query κ q) (r : Registry κ) (rows : List (Entity × Row Value q)) : Prop :=
  ∀ {σ : Type} (f : σ → Entity → Row Value q → σ × Row Value q) (s : σ),
    (x.forEach f s).1 = (walk f s rows).1 ∧
      (x.release r).Rewritten (walk f s rows).2 ((x.forEach f s).2.release r)

/-- No walk that answers as `f` does tells two registries apart. -/
structure Registry.WalkAlike (r r' : Registry κ) {σ : Type}
    (f : σ → Entity → Row Value q → σ × Row Value q) : Prop where
  forEach : ∀ s, (r.forEach q f s).result = (r'.forEach q f s).result
  query : ∀ x x', r.query q = .ok x → r'.query q = .ok x' →
    ∀ s, (x.forEach f s).1 = (x'.forEach f s).1

namespace Registry

variable {r r' : Registry κ} {σ : Type} {f : σ → Entity → Row Value q → σ × Row Value q}

theorem Valid.profile_eq (h : r.Valid) {e : Entity} (he : e ∈ r.entities) :
    r.get? e = r.pools.value? e :=
  funext (h.get?_of_mem he)

theorem Valid.presents_rows (h : r.Valid) (hq : q.Nodup) : r.Presents (r.rows q) where
  entities := h.map_fst_rows hq
  nodup := h.pools.nodup_rows h.live.nodup
  reads := by
    intro y hy
    obtain ⟨he, hf⟩ := Pools.mem_rows.mp hy
    rw [h.profile_eq he]
    exact Pools.fetch_eq_ok_iff.mp hf

theorem Valid.rewritten_walk (h : r.Valid) (hq : q.Nodup)
    (f : σ → Entity → Row Value q → σ × Row Value q) (s : σ) :
    r.Rewritten (walk f s (r.rows q)).2
      { r with pools := r.pools.storeRows (walk f s (r.rows q)).2 } where
  live := rfl
  recycled := rfl
  issued := rfl
  sizing := rfl
  pools := r.pools.revalued_storeRows _
  written := by
    intro y hy
    have hm := List.mem_map_of_mem (f := Prod.fst) hy
    rw [map_fst_walk, List.mem_map] at hm
    obtain ⟨z, hz, hzy⟩ := hm
    have he : y.1 ∈ r.entities := hzy ▸ (Pools.mem_rows.mp hz).1
    rw [(h.withPools h.pools.storeRows).profile_eq he]
    exact Pools.fetch_eq_ok_iff.mp (h.pools.fetch_walk hq h.live.nodup s y hy)
  kept := by
    intro e k hk
    have hv := h.pools.value?_storeRows hk
    rw [(h.withPools h.pools.storeRows).get?_eq, h.get?_eq, hv]
    exact ⟨rfl, rfl⟩

theorem Valid.walksOver_rows (h : r.Valid) (hc : r.Claimable q) : r.WalksOver (r.rows q) := by
  intro σ f s
  rw [h.forEach_eq f s (claimable_iff.mpr hc)]
  exact ⟨rfl, h.rewritten_walk hc.1 f s⟩

theorem Valid.walksOver_release (h : r.Valid) {x : Query κ q} (hx : x.Views r) :
    x.WalksOver r ((x.release r).rows q) := by
  intro σ f s
  have hrows : x.rows = (x.release r).rows q := by
    rw [Query.rows, hx.live]
    rfl
  have hv : (x.release r).Valid := h.withPools hx.pools
  rw [hx.forEach_eq h, hrows]
  exact ⟨rfl, hv.rewritten_walk (claimable_iff.mp hx.claimed).1 f s⟩

omit [DecidableEq κ] in
theorem walk_fst_of_map_fst {ys ys' : List (Entity × Row Value q)}
    (he : ys.map Prod.fst = ys'.map Prod.fst)
    (hf : ∀ s e row row', (f s e row).1 = (f s e row').1) (s : σ) :
    (walk f s ys).1 = (walk f s ys').1 := by
  induction ys generalizing ys' s with
  | nil => rw [List.map_eq_nil_iff.mp he.symm]
  | cons y ys ih =>
    cases ys' with
    | nil => cases he
    | cons y' ys' =>
      rw [List.map_cons, List.map_cons, List.cons.injEq] at he
      rw [walk_cons, walk_cons, hf s y.1 y.2 y'.2, he.1]
      exact ih he.2 _

theorem Valid.isSome_get? (h : r.Valid) {e : Entity} (he : e ∈ r.entities) (k : κ) :
    (r.get? e k).isSome = r.pools.owns e k := by
  rw [h.get?_of_mem he, h.pools.isSome_value?]

theorem Valid.selection_congr (h : r.Valid) (h' : r'.Valid) (he : r.entities = r'.entities)
    (ho : ∀ e ∈ r.entities, ∀ k ∈ q, (r.get? e k).isSome = (r'.get? e k).isSome) :
    r.selection q = r'.selection q := by
  rw [selection, selection, ← he]
  apply List.filter_congr
  intro e hm
  have hm' : e ∈ r'.entities := he ▸ hm
  rw [Bool.eq_iff_iff, has_iff, has_iff, h.isLive_iff, h'.isLive_iff]
  simp only [hm, hm', true_and]
  apply and_congr_right
  intro _
  apply forall₂_congr
  intro k hk
  rw [← h.isSome_get? hm, ← h'.isSome_get? hm', ho e hm k hk]

theorem Valid.rows_congr (h : r.Valid) (h' : r'.Valid) (he : r.entities = r'.entities)
    (hv : ∀ e ∈ r.entities, ∀ k ∈ q, r.get? e k = r'.get? e k) : r.rows q = r'.rows q := by
  rw [rows, rows, ← he]
  apply Pools.rows_congr
  intro e hm k hk
  rw [← h.get?_of_mem hm, ← h'.get?_of_mem (he ▸ hm), hv e hm k hk]

theorem Valid.forEach_query (h : r.Valid) {x : Query κ q} (hx : r.query q = .ok x) (s : σ) :
    (x.forEach f s).1 = (walk f s (r.rows q)).1 := by
  obtain ⟨hv, hp⟩ := h.views_query hx
  have hrows : x.rows = r.rows q := by
    rw [Query.rows, hv.live, hp]
    rfl
  rw [hv.forEach_eq h, hrows]

theorem Valid.walkAlike (h : r.Valid) (h' : r'.Valid) (hs : r.selection q = r'.selection q)
    (hw : q.Nodup → ∀ s, (walk f s (r.rows q)).1 = (walk f s (r'.rows q)).1) :
    r.WalkAlike r' f where
  forEach := by
    intro s
    by_cases hq : q.Nodup
    · have hl : (r.rows q).length = (r'.rows q).length := by
        rw [← List.length_map Prod.fst, h.map_fst_rows hq, hs, ← h'.map_fst_rows hq,
          List.length_map]
      rw [h.result_forEach hq, h'.result_forEach hq, ← walk_fst, ← walk_fst, hw hq s, hl]
    · have hn : r.selection q = [] := h.selection_eq_nil fun hc => hq hc.1
      rw [(h.forEach_of_selection_nil hn f s).1, (h'.forEach_of_selection_nil (hs ▸ hn) f s).1]
  query := by
    intro x x' hx hx' s
    have hc := claimable_iff.mp (h.views_query hx).1.claimed
    rw [h.forEach_query hx, h'.forEach_query hx', hw hc.1 s]

end Registry

open Registry in
/-- In a reachable registry, a walk over a list of kinds that can be claimed hands out every live
entity that owns them, once and in registry order, with its components in the order of the list,
and replaces these by what is written and nothing else; so does every walk through a query. Walks
in two registries with the same live entities in the same order visit the same entities if these
own the same kinds, and cannot be told apart if they also have the same components. -/
theorem walks_visit_owners :
    (∀ r : Registry κ, r.Reachable → ∀ q : List κ, r.Claimable q →
      (∃ rows : List (Entity × Row Value q), r.Presents rows ∧ r.WalksOver rows) ∧
      (∃ x, r.query q = .ok x) ∧
      ∀ x, r.query q = .ok x → ∀ ws, ∃ rows : List (Entity × Row Value q),
        ((x.after ws).release r).Presents rows ∧ (x.after ws).WalksOver r rows) ∧
    ∀ r r' : Registry κ, r.Reachable → r'.Reachable → r.entities = r'.entities → ∀ q : List κ,
      (∀ e ∈ r.entities, ∀ k ∈ q, (r.get? e k).isSome = (r'.get? e k).isSome) →
      (∀ {σ : Type} (f : σ → Entity → Row Value q → σ × Row Value q),
        (∀ s e row row', (f s e row).1 = (f s e row').1) → r.WalkAlike r' f) ∧
      ((∀ e ∈ r.entities, ∀ k ∈ q, r.get? e k = r'.get? e k) →
        ∀ {σ : Type} (f : σ → Entity → Row Value q → σ × Row Value q), r.WalkAlike r' f) := by
  constructor
  · intro r hr q hc
    have h := hr.valid
    refine ⟨⟨_, h.presents_rows hc.1, h.walksOver_rows hc⟩, query_iff.mpr hc, ?_⟩
    intro x hx ws
    have hv := (h.views_query hx).1.after h ws
    have hrel : ((x.after ws).release r).Valid := h.withPools hv.pools
    exact ⟨_, hrel.presents_rows hc.1, h.walksOver_release hv⟩
  · intro r r' hr hr' he q ho
    have h := hr.valid
    have h' := hr'.valid
    have hs := h.selection_congr h' he ho
    constructor
    · intro σ f hf
      apply h.walkAlike h' hs
      intro hq
      apply walk_fst_of_map_fst _ hf
      rw [h.map_fst_rows hq, hs, h'.map_fst_rows hq]
    · intro hv σ f
      apply h.walkAlike h' hs
      intro _ s
      rw [h.rows_congr h' he hv]

instance : DecidableEq (Value (Drift.Kind.health (ε := Empty))) :=
  inferInstanceAs (DecidableEq Drift.Health)

/-- Two entities get their health in one order or in the other. -/
theorem walks_visit_owners_health :
    ∃ r r' : Registry (Drift.Kind Empty), r.Reachable ∧ r'.Reachable ∧
      r.entities = [⟨0⟩, ⟨1⟩] ∧
      (r.pool? .health).map Pool.entities = some [⟨0⟩, ⟨1⟩] ∧
      (r'.pool? .health).map Pool.entities = some [⟨1⟩, ⟨0⟩] ∧
      (∃ rows : List (Entity × Row Value [Drift.Kind.health]),
        r.Presents rows ∧ r.WalksOver rows) ∧
      ∀ {σ : Type} (f : σ → Entity → Row Value [Drift.Kind.health] →
        σ × Row Value [Drift.Kind.health]), r.WalkAlike r' f := by
  let r₀ : Registry (Drift.Kind Empty) := { sizing := ⟨0, 0⟩ }
  let give (e : Entity) : Action (Drift.Kind Empty) :=
    .command (.assign e .health (Drift.Health.full 9))
  let r := r₀.after [.command .create, .command .create, give ⟨0⟩, give ⟨1⟩]
  let r' := r₀.after [.command .create, .command .create, give ⟨1⟩, give ⟨0⟩]
  have hr : r.Reachable := (Registry.reachable_empty 0).after _
  have hr' : r'.Reachable := (Registry.reachable_empty 0).after _
  have hl : r.entities = [⟨0⟩, ⟨1⟩] := by decide
  have hl' : r.entities = r'.entities := by decide
  have hc : r.Claimable [.health] := by
    constructor
    · exact List.nodup_singleton _
    · decide +kernel
  have hsame : ∀ e ∈ r.entities, r.get? e .health = r'.get? e .health := by decide +kernel
  have hv : ∀ e ∈ r.entities, ∀ k ∈ [Drift.Kind.health], r.get? e k = r'.get? e k := by
    intro e he k hk
    cases List.mem_singleton.mp hk
    exact hsame e he
  have ho : ∀ e ∈ r.entities, ∀ k ∈ [Drift.Kind.health],
      (r.get? e k).isSome = (r'.get? e k).isSome := by
    intro e he k hk
    rw [hv e he k hk]
  exact ⟨r, r', hr, hr', hl, by decide +kernel, by decide +kernel,
    (walks_visit_owners.1 r hr _ hc).1, (walks_visit_owners.2 r r' hr hr' hl' _ ho).2 hv⟩

end TickWorld
