import TickWorld.Proofs.Leftmost
import TickWorld.Proofs.Registry.Ownership
import TickWorld.Proofs.Registry.Turnover
import TickWorld.Proofs.Registry.Twin

namespace TickWorld

variable {κ : Type} [DecidableEq κ] [ComponentKind κ]

namespace Registry

variable {r r' : Registry κ} {es rest : List Entity} {e : Entity} {n : Nat}

/-- The entity at a place of a list is not alive, or stands in the list before. -/
def Blocked (r : Registry κ) (es : List Entity) (i : Nat) (e : Entity) : Prop :=
  e ∉ r.entities ∨ e ∈ es.take i

/-- Some entities are gone with all that they owned, and wait in their order; all others have what
they had. -/
structure Buries (r : Registry κ) (es : List Entity) (r' : Registry κ) : Prop
    extends r.Retires es r' where
  bare : ∀ e ∈ es, r'.Bare e
  kept : ∀ e k, e ∉ es →
    r'.get? e k = r.get? e k ∧ r'.pools.value? e k = r.pools.value? e k

theorem Valid.buries_foldl (h : r.Valid) (hn : es.Nodup) (hl : ∀ e ∈ es, e ∈ r.entities) :
    r.Buries es (es.foldl Registry.retire r) where
  toRetires := h.retires_foldl hn hl
  bare := by
    intro e he
    obtain ⟨hv, -⟩ := h.foldl_retire hn hl
    apply (bare_iff hv.pools).mpr
    intro k
    rw [value?_foldl_retire h.pools, if_pos he]
  kept := by
    intro e k he
    rw [h.get?_foldl_retire hn hl he, value?_foldl_retire h.pools, if_neg he]
    exact ⟨rfl, rfl⟩

omit [DecidableEq κ] in
theorem take_of_unblocked
    (hb : ∀ i e, i < n → es[i]? = some e → ¬r.Blocked es i e) :
    (es.take n).Nodup ∧ ∀ e ∈ es.take n, e ∈ r.entities := by
  induction n with
  | zero => simp
  | succ n ih =>
    obtain ⟨hn, hl⟩ := ih fun i e hi => hb i e (Nat.lt_succ_of_lt hi)
    rw [List.take_add_one]
    cases he : es[n]? with
    | none =>
      rw [Option.toList_none, List.append_nil]
      exact ⟨hn, hl⟩
    | some e =>
      have hfree := hb n e (Nat.lt_succ_self n) he
      rw [Blocked, not_or, not_not] at hfree
      constructor
      · apply List.nodup_append.mpr
        refine ⟨hn, List.nodup_singleton e, ?_⟩
        rintro a ha b hb rfl
        exact hfree.2 (List.mem_singleton.mp hb ▸ ha)
      · intro a ha
        rcases List.mem_append.mp ha with ha | ha
        · exact hl a ha
        · exact List.mem_singleton.mp ha ▸ hfree.1

omit [DecidableEq κ] in
theorem nodup_of_unblocked (hb : ∀ i e, es[i]? = some e → ¬r.Blocked es i e) :
    es.Nodup ∧ ∀ e ∈ es, e ∈ r.entities := by
  have ht := take_of_unblocked (n := es.length) fun i e _ => hb i e
  rwa [List.take_length] at ht

theorem Valid.destroyCounting_blocked (h : r.Valid) (hn : es.Nodup)
    (hl : ∀ e ∈ es, e ∈ r.entities) (he : e ∉ r.entities ∨ e ∈ es) :
    (r.destroyCounting n (es ++ e :: rest)) =
      ⟨.error (.deadEntity e), es.foldl Registry.retire r, #[]⟩ := by
  obtain ⟨hv, hm⟩ := h.foldl_retire hn hl
  have hdead : (es.foldl Registry.retire r).isLive e = false := by
    apply hv.isLive_eq_false_iff.mpr
    intro hlive
    obtain ⟨ha, hne⟩ := (hm e).mp hlive
    exact he.elim (· ha) hne
  rw [h.destroyCounting_append hn hl, Registry.destroyCounting, hdead, if_neg Bool.false_ne_true]

theorem Valid.destroyMany_selection (h : r.Valid) (q : List κ) :
    r.destroyMany (r.selection q) =
      ⟨.ok (r.destroyWith q).result, (r.destroyWith q).state, #[]⟩ := by
  rw [h.selection_eq, h.destroyMany_eq (h.matching_nodup q) fun _ => mem_entities_of_mem_matching]
  rfl

theorem Valid.destroyMany_entities (h : r.Valid) :
    r.destroyMany r.entities = ⟨.ok r.size, r.entities.foldl Registry.retire r, #[]⟩ := by
  have hl : r.entities.length = r.size := Array.length_toList
  rw [← hl]
  exact h.destroyMany_eq h.live.nodup fun _ he => he

/-- Pools that hold values of live entities only lose all of them either way. -/
theorem Valid.twin_reset (h : r.Valid) (ht : r.Tidy) :
    r.reset.state.Twin (r.entities.foldl Registry.retire r) := by
  have hv := (h.foldl_retire h.live.nodup fun _ he => he).1
  rw [foldl_retire_eq, Pools.foldl_eraseEntity] at hv ⊢
  refine ⟨h.live.twin_clear fun _ he => he, hv.recycled.twin, rfl,
    ⟨h.pools.clear, hv.pools, ?_⟩, rfl⟩
  rw [Registry.reset, Pools.clear, Pools.mapPools, Array.toList_map, Array.toList_map,
    List.forall₂_map_left_iff, List.forall₂_map_right_iff, List.forall₂_same]
  intro p hp
  have hm := Array.mem_toList_iff.mp hp
  apply AnyPool.Twin.mk
  apply (h.pools.pool (h.pools.get?_of_mem hm)).twin_clear
  intro e he
  exact h.isLive_iff.mp (ht.isLive_of_mem h hm he)

end Registry

open Registry in
/-- A list of entities is destroyed as a whole if none of them is dead or repeated; otherwise the
leftmost that is so is named, and exactly those before it are destroyed. -/
theorem destruction_stops_leftmost {r : Registry κ} (h : r.Reachable) (es : List Entity) :
    ((∀ i e, es[i]? = some e → ¬r.Blocked es i e) →
      (r.destroyMany es).result = .ok es.length ∧ r.Buries es (r.destroyMany es).state) ∧
    ∀ i e, Leftmost es (r.Blocked es) i e →
      (r.destroyMany es).result = .error (.deadEntity e) ∧
        r.Buries (es.take i) (r.destroyMany es).state := by
  have hv := h.valid
  constructor
  · intro hb
    obtain ⟨hn, hl⟩ := nodup_of_unblocked hb
    rw [hv.destroyMany_eq hn hl]
    exact ⟨rfl, hv.buries_foldl hn hl⟩
  · intro i e hi
    obtain ⟨hn, hl⟩ := take_of_unblocked fun j b hj hb => hi.before j b hj hb
    obtain ⟨hlt, he⟩ := List.getElem?_eq_some_iff.mp hi.place
    have hs : es.take i ++ e :: es.drop (i + 1) = es := by
      rw [← he, ← List.drop_eq_getElem_cons hlt, List.take_append_drop]
    have hc : r.destroyMany es = ⟨.error (.deadEntity e), (es.take i).foldl retire r, #[]⟩ := by
      rw [destroyMany, ← hv.destroyCounting_blocked hn hl hi.found, hs]
    rw [hc]
    exact ⟨rfl, hv.buries_foldl hn hl⟩

/-- Of four entities one is dead, and the list names a live one twice. -/
theorem destruction_stops_leftmost_repeated :
    ∃ r : Registry (Drift.Kind Empty), r.Reachable ∧ r.entities = [⟨0⟩, ⟨3⟩, ⟨2⟩] ∧
      (r.get? ⟨2⟩ .health).isSome = true ∧
      ∃ es : List Entity, es = [⟨3⟩, ⟨0⟩, ⟨3⟩, ⟨1⟩] ∧ Leftmost es (r.Blocked es) 2 ⟨3⟩ ∧
        (r.destroyMany es).result = .error (.deadEntity ⟨3⟩) ∧
        r.Buries [⟨3⟩, ⟨0⟩] (r.destroyMany es).state := by
  let r : Registry (Drift.Kind Empty) := { sizing := ⟨0, 0⟩ }
  let give (e : Entity) : Action (Drift.Kind Empty) :=
    .command (.assign e .health (Drift.Health.full 9))
  let r' := (r.after (List.replicate 4 (.command .create))).after
    [give ⟨0⟩, give ⟨2⟩, give ⟨3⟩, .command (.destroy ⟨1⟩)]
  let es : List Entity := [⟨3⟩, ⟨0⟩, ⟨3⟩, ⟨1⟩]
  have hr : r'.Reachable := ((Registry.reachable_empty 0).after _).after _
  have he : r'.entities = [⟨0⟩, ⟨3⟩, ⟨2⟩] := by decide +kernel
  have hi : Leftmost es (r'.Blocked es) 2 ⟨3⟩ := by
    refine ⟨rfl, .inr (by decide), ?_⟩
    intro j e hj hp
    rw [Registry.Blocked, he]
    match j with
    | 0 => cases hp; decide
    | 1 => cases hp; decide
  obtain ⟨hresult, hstate⟩ := (destruction_stops_leftmost hr es).2 2 ⟨3⟩ hi
  exact ⟨r', hr, he, by decide +kernel, es, rfl, hi, hresult, hstate⟩

open Registry in
/-- Destroying all entities that own some kinds is destroying the list of them. If the pools hold
values of live entities only, a reset cannot be told from destroying the list of all entities, then
or after any later actions. -/
theorem batch_destruction_agrees {r : Registry κ} (h : r.Reachable) :
    (∀ q : List κ, r.destroyMany (r.selection q) =
      ⟨.ok (r.destroyWith q).result, (r.destroyWith q).state, #[]⟩) ∧
    (r.Tidy →
      (r.destroyMany r.entities).result = .ok r.size ∧
      r.reset.state.entities = [] ∧
      r.reset.state.recycled.toList = r.recycled.toList ++ r.entities ∧
      (∀ p ∈ r.reset.state.pools.pools, p.pool.pairs = []) ∧
      r.reset.state.view = (r.destroyMany r.entities).state.view ∧
      ∀ as : List (Action κ),
        r.reset.state.replies as = (r.destroyMany r.entities).state.replies as ∧
        (r.reset.state.after as).ReadAlike ((r.destroyMany r.entities).state.after as) ∧
        (r.reset.state.after as).view = ((r.destroyMany r.entities).state.after as).view) := by
  have hv := h.valid
  refine ⟨hv.destroyMany_selection, ?_⟩
  intro ht
  have htwin := hv.twin_reset ht
  rw [hv.destroyMany_entities]
  refine ⟨rfl, rfl, hv.retires_reset.recycled, ?_, htwin.view, ?_⟩
  · intro p hp
    obtain ⟨p, -, rfl⟩ := Array.mem_map.mp hp
    rfl
  · intro as
    obtain ⟨hreplies, hafter⟩ := htwin.after as
    exact ⟨hreplies, hafter.readAlike, hafter.view⟩

/-- Three entities, of which the last owns something. The index arrays differ in the end. -/
theorem batch_destruction_agrees_stale :
    ∃ r : Registry (Drift.Kind Empty), r.Reachable ∧ r.Tidy ∧ r.entities = [⟨0⟩, ⟨1⟩, ⟨2⟩] ∧
      r.pools.owns ⟨2⟩ .health = true ∧
      r.reset.state.live.sparse ≠ (r.destroyMany r.entities).state.live.sparse ∧
      r.reset.state.view = (r.destroyMany r.entities).state.view ∧
      ∀ as : List (Action (Drift.Kind Empty)),
        r.reset.state.replies as = (r.destroyMany r.entities).state.replies as := by
  let r₀ : Registry (Drift.Kind Empty) := { sizing := ⟨0, 0⟩ }
  let born : Action (Drift.Kind Empty) := .command .create
  let give : Action (Drift.Kind Empty) := .command (.assign ⟨2⟩ .health (Drift.Health.full 9))
  let r := r₀.after [born, born, born, give]
  have hz : Registry.ofSizing ⟨0, 0⟩ = .ok r₀ := rfl
  have ht : r.TidilyReachable :=
    .act give (.act born (.act born (.act born (.ofSizing hz) trivial) trivial) trivial) trivial
  obtain ⟨-, -, -, -, hview, hlater⟩ := (batch_destruction_agrees ht.reachable).2 ht.tidy
  exact ⟨r, ht.reachable, ht.tidy, by decide, by decide +kernel, by decide +kernel, hview,
    fun as => (hlater as).1⟩

end TickWorld
