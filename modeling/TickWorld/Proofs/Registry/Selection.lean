import TickWorld.Drift.Component
import TickWorld.Proofs.Registry.Walk

namespace TickWorld

variable {κ : Type} [DecidableEq κ] [ComponentKind κ]

/-- The live entities that have a component of each kind, in registry order. -/
def Registry.selection (r : Registry κ) (q : List κ) : List Entity := r.entities.filter (r.has · q)

/-- No kind of a list occurs twice, and each has a pool. -/
def Registry.Claimable (r : Registry κ) (q : List κ) : Prop :=
  q.Nodup ∧ ∀ k ∈ q, r.hasPool k = true

/-- A query shows the selection of a registry: it has, counts, lists and visits its entities. -/
structure Query.Shows {q : List κ} (x : Query κ q) (r : Registry κ) : Prop where
  has : ∀ e, x.has e = r.has e q
  isSome_get? : ∀ e, (x.get? e).isSome = r.has e q
  entities : x.entities = r.selection q
  count : x.count = (r.selection q).length
  forEach : ∃ rows : List (Entity × Row Value q), rows.map Prod.fst = r.selection q ∧
    (∀ y ∈ rows, x.get? y.1 = some y.2) ∧
    ∀ {σ : Type} (f : σ → Entity → Row Value q → σ × Row Value q) (s : σ),
      (x.forEach f s).1 = rows.foldl (fun s y => (f s y.1 y.2).1) s

/-- All readers of a registry agree on its selection. -/
structure Registry.Agrees (r : Registry κ) (q : List κ) : Prop where
  nodup : (r.selection q).Nodup
  count : r.count q = (r.selection q).length
  isEmptyWith : r.isEmptyWith q = true ↔ r.selection q = []
  forEach : ∃ rows : List (Entity × Row Value q), rows.map Prod.fst = r.selection q ∧
    (∀ y ∈ rows, r.getMany y.1 q = .ok y.2) ∧
    ∀ {σ : Type} (f : σ → Entity → Row Value q → σ × Row Value q) (s : σ),
      (r.forEach q f s).result =
        ((r.selection q).length, rows.foldl (fun s y => (f s y.1 y.2).1) s)
  destroyWith : (r.destroyWith q).result = (r.selection q).length
  count_destroyWith : (r.destroyWith q).state.count q = 0
  mem_destroyWith : ∀ e, e ∈ (r.destroyWith q).state.entities ↔
    e ∈ r.entities ∧ e ∉ r.selection q
  getMany : ∀ e, r.has e q = true ↔ ∃ row, r.getMany e q = .ok row
  delete : ∀ e, r.has e q = true ↔ (r.delete e q).result = .ok ()
  query : (∃ x, r.query q = .ok x) ↔ r.Claimable q
  unclaimable : ¬r.Claimable q → r.selection q = []
  get?_query : ∀ x, r.query q = .ok x → ∀ e, x.get? e = (r.getMany e q).toOption
  /-- Also after writes through the query. -/
  shows : ∀ x, r.query q = .ok x → ∀ ws, (x.after ws).Shows r

namespace Registry

variable {r : Registry κ} {e : Entity} {q : List κ}

theorem has_iff : r.has e q = true ↔
    r.isLive e = true ∧ q.Nodup ∧ ∀ k ∈ q, r.pools.owns e k = true := by
  rw [has, Bool.and_eq_true, Pools.ownsAll_iff]

theorem Valid.selection_eq (h : r.Valid) (q : List κ) : r.selection q = r.matching q := by
  rw [selection, matching]
  apply List.filter_congr
  intro e he
  rw [has, h.isLive_iff.mpr he, Bool.true_and]

theorem claimable_iff : r.pools.claim [] q = .ok () ↔ r.Claimable q := by
  rw [Pools.claim_eq_ok_iff, Claimable]
  simp only [List.not_mem_nil, not_false_eq_true, implies_true, and_true]
  exact and_comm

theorem Valid.selection_eq_nil (h : r.Valid) (hc : ¬r.Claimable q) : r.selection q = [] := by
  rw [selection, List.filter_eq_nil_iff]
  intro e _ hs
  rw [has_iff] at hs
  exact hc ⟨hs.2.1, fun k hk => h.pools.contains_of_owns (hs.2.2 k hk)⟩

theorem Valid.map_fst_rows (h : r.Valid) (hn : q.Nodup) :
    (r.rows q).map Prod.fst = r.selection q := by
  rw [rows, h.pools.map_fst_rows, h.selection_eq, matching]
  apply List.filter_congr
  intro e _
  rw [Bool.eq_iff_iff, Pools.ownsAll_iff, List.all_eq_true]
  exact ⟨fun ho => ⟨hn, ho⟩, fun ho => ho.2⟩

theorem Valid.claimable_of_has (h : r.Valid) (he : r.has e q = true) : r.Claimable q := by
  rw [has_iff] at he
  exact ⟨he.2.1, fun k hk => h.pools.contains_of_owns (he.2.2 k hk)⟩

theorem getMany_of_claimable (hc : r.Claimable q) (he : r.isLive e = true) :
    r.getMany e q = r.pools.fetch e q := by
  rw [getMany, if_pos he, claimable_iff.mpr hc]

theorem Valid.fetch_of_has (h : r.Valid) (he : r.has e q = true) :
    ∃ row, r.pools.fetch e q = .ok row := by
  have hs := h.pools.isSome_fetch (e := e) (q := q)
  rw [List.all_eq_true.mpr (has_iff.mp he).2.2] at hs
  cases hf : r.pools.fetch e q with
  | error cause => simp [hf, Except.toOption] at hs
  | ok row => exact ⟨row, rfl⟩

theorem Valid.getMany_iff (h : r.Valid) :
    r.has e q = true ↔ ∃ row, r.getMany e q = .ok row := by
  constructor
  · intro he
    rw [getMany_of_claimable (h.claimable_of_has he) (has_iff.mp he).1]
    exact h.fetch_of_has he
  · intro hx
    obtain ⟨row, hrow⟩ := hx
    rw [Registry.getMany] at hrow
    split at hrow
    · rename_i hl
      split at hrow
      · cases hrow
      · rename_i hc
        have hs := h.pools.isSome_fetch (e := e) (q := q)
        rw [hrow] at hs
        exact has_iff.mpr ⟨hl, (claimable_iff.mp hc).1, List.all_eq_true.mp hs.symm⟩
    · cases hrow

theorem delete_iff : r.has e q = true ↔ (r.delete e q).result = .ok () := by
  rw [has, Bool.and_eq_true, Registry.delete, Pools.ownsAll]
  cases r.isLive e with
  | false => simp
  | true =>
    cases firstRepeat? [] q with
    | some k => simp
    | none => cases r.pools.missing? e q <;> simp

theorem query_iff :
    (∃ x, r.query q = .ok x) ↔ r.Claimable q := by
  rw [← claimable_iff, Registry.query]
  cases r.pools.claim [] q with
  | error cause => simp
  | ok => simp

theorem Valid.forEach_rows (h : r.Valid) (q : List κ) :
    ∃ rows : List (Entity × Row Value q), rows.map Prod.fst = r.selection q ∧
      (∀ y ∈ rows, r.getMany y.1 q = .ok y.2) ∧
      ∀ {σ : Type} (f : σ → Entity → Row Value q → σ × Row Value q) (s : σ),
        (r.forEach q f s).result =
          ((r.selection q).length, rows.foldl (fun s y => (f s y.1 y.2).1) s) := by
  by_cases hc : r.Claimable q
  · have hm := h.map_fst_rows hc.1
    refine ⟨r.rows q, hm, ?_, ?_⟩
    · intro y hy
      obtain ⟨he, hf⟩ := Pools.mem_rows.mp hy
      rw [getMany_of_claimable hc (h.isLive_iff.mpr he), hf]
    · intro σ f s
      rw [← hm, List.length_map]
      exact (h.forEach f s (claimable_iff.mpr hc)).1
  · have hn := h.selection_eq_nil hc
    refine ⟨[], hn.symm, by simp, ?_⟩
    intro σ f s
    rw [hn, Registry.forEach]
    split
    · rfl
    · rename_i hk
      exact absurd (claimable_iff.mp hk) hc

theorem Valid.forEach_of_selection_nil (h : r.Valid) (hn : r.selection q = []) {σ : Type}
    (f : σ → Entity → Row Value q → σ × Row Value q) (s : σ) :
    (r.forEach q f s).result = (0, s) ∧ (r.forEach q f s).state = r := by
  cases hc : r.pools.claim [] q with
  | error cause =>
    simp only [Registry.forEach, hc, and_self]
  | ok =>
    have hrows : r.rows q = [] := by
      rw [← List.map_eq_nil_iff, h.map_fst_rows (claimable_iff.mp hc).1, hn]
    rw [h.forEach_eq f s hc, hrows]
    exact ⟨rfl, rfl⟩

theorem Valid.count_destroyWith (h : r.Valid) (q : List κ) :
    (r.destroyWith q).state.count q = 0 := by
  obtain ⟨hv, hm⟩ := h.foldl_retire (h.matching_nodup q) fun _ => mem_entities_of_mem_matching
  rw [count, List.countP_eq_zero]
  intro e he ho
  obtain ⟨hl, hn⟩ := (hm e).mp he
  rw [Pools.ownsAll_iff] at ho
  apply hn
  rw [matching, List.mem_filter, Pools.ownsAll_iff]
  refine ⟨hl, ho.1, ?_⟩
  intro k hk
  have hk' : ((r.matching q).foldl Registry.retire r).pools.owns e k = true := ho.2 k hk
  rw [← hv.pools.isSome_value?, value?_foldl_retire h.pools, if_neg hn] at hk'
  rw [← h.pools.isSome_value?, hk']

theorem Valid.mem_destroyWith (h : r.Valid) (q : List κ) (e : Entity) :
    e ∈ (r.destroyWith q).state.entities ↔ e ∈ r.entities ∧ e ∉ r.selection q := by
  rw [h.selection_eq]
  exact (h.foldl_retire (h.matching_nodup q) fun _ => mem_entities_of_mem_matching).2 e

end Registry

section

variable {r : Registry κ} {q : List κ} {x : Query κ q}

theorem Query.Views.all_owns (hx : x.Views r) (e : Entity) :
    q.all (x.pools.owns e) = r.pools.ownsAll e q := by
  have hn := (Registry.claimable_iff.mp hx.claimed).1
  rw [Bool.eq_iff_iff, Pools.ownsAll_iff, List.all_eq_true]
  simp only [hx.alike.owns]
  exact ⟨fun ho => ⟨hn, ho⟩, fun ho => ho.2⟩

theorem Query.Views.has_eq (hx : x.Views r) (e : Entity) : x.has e = r.has e q := by
  rw [Query.has, hx.all_owns, hx.live, Registry.has, Registry.isLive]

theorem Query.Views.entities_eq (hx : x.Views r) (h : r.Valid) : x.entities = r.selection q := by
  rw [Query.entities, hx.live, h.selection_eq]
  simp only [hx.all_owns]
  rfl

theorem Query.Views.shows (hx : x.Views r) (h : r.Valid) : x.Shows r where
  has := hx.has_eq
  isSome_get? e := by
    rw [← hx.has_eq, Query.get?, Query.has, ← hx.pools.isSome_fetch]
    cases x.live.has e <;> simp
  entities := hx.entities_eq h
  count := by
    rw [← hx.entities_eq h]
    exact List.countP_eq_length_filter
  forEach := by
    refine ⟨x.rows, ?_, ?_, fun f s => (hx.forEach h f s).1⟩
    · rw [← hx.entities_eq h]
      exact hx.pools.map_fst_rows q _
    · intro y hy
      obtain ⟨he, hf⟩ := Pools.mem_rows.mp hy
      have hl : x.live.has y.1 = true := by
        rw [hx.live] at he ⊢
        exact h.isLive_iff.mpr he
      rw [Query.get?, if_pos hl, hf]
      rfl

theorem Registry.Valid.get?_query (h : r.Valid) (hx : r.query q = .ok x) (e : Entity) :
    x.get? e = (r.getMany e q).toOption := by
  obtain ⟨hv, hp⟩ := h.views_query hx
  have hc := claimable_iff.mp hv.claimed
  rw [Query.get?, hv.live, hp]
  cases he : r.isLive e with
  | true =>
    rw [Registry.getMany_of_claimable hc he]
    exact if_pos he
  | false =>
    have hd : r.live.has e = false := he
    rw [Registry.getMany, he, hd]
    rfl

/-- In every reachable registry, all readers agree on every list of kinds. -/
theorem readers_agree (h : r.Reachable) (q : List κ) : r.Agrees q where
  nodup := h.valid.live.nodup.filter _
  count := by
    rw [h.valid.selection_eq]
    exact List.countP_eq_length_filter
  isEmptyWith := by
    rw [h.valid.selection_eq, Registry.isEmptyWith, Registry.matching, List.filter_eq_nil_iff]
    simp
  forEach := h.valid.forEach_rows q
  destroyWith := by
    rw [h.valid.selection_eq]
    rfl
  count_destroyWith := h.valid.count_destroyWith q
  mem_destroyWith := h.valid.mem_destroyWith q
  getMany _ := h.valid.getMany_iff
  delete _ := Registry.delete_iff
  query := Registry.query_iff
  unclaimable := h.valid.selection_eq_nil
  get?_query _ hx := h.valid.get?_query hx
  shows _ hx ws := ((h.valid.views_query hx).1.after h.valid ws).shows h.valid

end

/-- The pool of health also holds a value for a number that is not alive. -/
theorem readers_agree_health :
    ∃ r : Registry (Drift.Kind Empty), r.Reachable ∧ r.pools.owns ⟨1⟩ .health = true ∧
      r.selection [.health] = [⟨0⟩] ∧ r.Agrees [.health] ∧
      r.selection [.health, .health] = [] ∧ r.Agrees [.health, .health] := by
  let r₀ : Registry (Drift.Kind Empty) := { sizing := ⟨0, 0⟩ }
  let r := r₀.after [.command .create, .command (.assign ⟨0⟩ .health (Drift.Health.full 9)),
    .writePool .health (.assign ⟨1⟩ (Drift.Health.full 6))]
  have hr : r.Reachable := (Registry.reachable_empty 0).after _
  have ho : r.pools.owns ⟨1⟩ .health = true := by decide +kernel
  have hs : r.selection [.health] = [⟨0⟩] := by decide +kernel
  have hn : r.selection [.health, .health] = [] := by decide +kernel
  exact ⟨r, hr, ho, hs, readers_agree hr _, hn, readers_agree hr _⟩

end TickWorld
