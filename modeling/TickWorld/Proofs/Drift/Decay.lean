import TickWorld.Proofs.Drift.Aging

namespace TickWorld.Drift

variable {ε : Type} [DecidableEq ε] [ComponentKind ε]

/-- A decay system between updates: it was updated over some registries since it was made. -/
inductive Decay.AtRest : Decay → Prop where
  | fresh : AtRest {}
  | update {ε : Type} [DecidableEq ε] [ComponentKind ε] {d : Decay} (r : Registry (Kind ε)) :
    AtRest d → AtRest (d.update r).result

theorem Decay.expired_update (d : Decay) (r : Registry (Kind ε)) :
    (d.update r).result.expired = #[] := by
  simp only [Decay.update, Outcome.bind]
  split <;> rfl

theorem Decay.AtRest.expired {d : Decay} (h : d.AtRest) : d.expired = #[] := by
  cases h with
  | fresh => rfl
  | update r _ => exact Decay.expired_update _ r

/-- The second registry is what is left of the first when its entities have come one tick closer
to the end of their lifetimes. -/
structure Decays (r r' : Registry (Kind ε)) : Prop where
  live : ∀ e, e ∈ r'.entities ↔ e ∈ r.entities ∧ e ∉ lapsing r
  lifetime : ∀ e ∈ r'.entities,
    (r'.get? e .lifetime).map (·.ticks.toNat + 1) = (r.get? e .lifetime).map (·.ticks.toNat)
  others : ∀ e ∈ r'.entities, ∀ k ≠ .lifetime, r'.get? e k = r.get? e k
  ageless : ∀ e ∈ r.entities, r.get? e .lifetime = none →
    e ∈ r'.entities ∧ r'.get? e = r.get? e
  strays : ∀ e ∉ r.entities, ∀ k, r'.pools.value? e k = r.pools.value? e k

variable {r : Registry (Kind ε)} {e : Entity}

theorem lifetime_shortened (hl : (r.get? e .lifetime).any (·.ticks ≤ 1) = false) :
    (shortened (r.get? e) .lifetime).map (·.ticks.toNat + 1) =
      (r.get? e .lifetime).map (·.ticks.toNat) := by
  rw [shortened, Function.update_self]
  cases hv : r.get? e .lifetime with
  | none => rfl
  | some l =>
    rw [hv, Option.any_some, decide_eq_false_iff_not, UInt32.le_iff_toNat_le,
      UInt32.toNat_one] at hl
    rw [Option.map_some, Option.map_some, Option.map_some, Lifetime.toNat_shorten]
    congr 1
    omega

theorem decays_foldl_retire (h : r.Valid) (s : Array Entity) :
    Decays r ((lapsing r).foldl Registry.retire (shortenLifetimes s r).state) := by
  have h' := valid_shortenLifetimes h s
  have hlive := lapsing_live s r
  obtain ⟨-, hm⟩ := h'.foldl_retire (nodup_lapsing h) hlive
  rw [entities_shortenLifetimes] at hm
  have hget {e : Entity} (he : e ∈ r.entities) (hl : e ∉ lapsing r) :
      ((lapsing r).foldl Registry.retire (shortenLifetimes s r).state).get? e =
        shortened (r.get? e) := by
    rw [h'.get?_foldl_retire (nodup_lapsing h) hlive hl, get?_shortenLifetimes h s he]
  refine ⟨hm, ?_, ?_, ?_, ?_⟩
  · intro e he
    obtain ⟨he, hl⟩ := (hm e).mp he
    have hlater : (r.get? e .lifetime).any (·.ticks ≤ 1) = false := by
      rw [mem_lapsing, expired_shortened] at hl
      exact Bool.eq_false_iff.mpr fun ht => hl ⟨he, ht⟩
    rw [hget he hl]
    exact lifetime_shortened hlater
  · intro e he k hk
    obtain ⟨he, hl⟩ := (hm e).mp he
    rw [hget he hl]
    exact Function.update_of_ne hk ..
  · intro e he hn
    have hl : e ∉ lapsing r := by
      rw [mem_lapsing, expired_shortened, hn]
      exact fun ht => Bool.false_ne_true ht.2
    refine ⟨(hm e).mpr ⟨he, hl⟩, ?_⟩
    rw [hget he hl, shortened, hn, Option.map_none, ← hn]
    exact Function.update_eq_self ..
  · intro e he k
    have hl : e ∉ lapsing r := fun hl => he (mem_lapsing.mp hl).1
    rw [Registry.value?_foldl_retire h'.pools, if_neg hl]
    exact h.value?_forEach_of_dead s he k

theorem decayFailed_not_mem (s : Array Entity) (r : Registry (Kind ε)) (cause : Failure) :
    .decayFailed cause ∉ (shortenLifetimes s r).events := by
  rw [shortenLifetimes_eq, Outcome.map, Registry.forEach]
  split <;> simp

/-- An update destroys the entities whose lifetime is over, counts those that are gone, and leaves
nothing on its list. The destruction of what the walk has listed never fails. -/
theorem decay_destroys_lapsing (h : r.Reachable) {d : Decay} (hd : d.AtRest) :
    Decays r (d.update r).state ∧
      (d.update r).result.destroyed =
        d.destroyed + (r.entities.filter (· ∉ (d.update r).state.entities)).length ∧
      (d.update r).result.expired = #[] ∧
      (∃ count, ((shortenLifetimes d.expired r).state.destroyMany
        (shortenLifetimes d.expired r).result.toList).result = .ok count) ∧
      ∀ cause, .decayFailed cause ∉ (d.update r).events := by
  have hd := hd.expired
  have hdecays := decays_foldl_retire h.valid #[]
  have hgone : (lapsing r).length =
      (r.entities.filter (· ∉
        ((lapsing r).foldl Registry.retire (shortenLifetimes #[] r).state).entities)).length := by
    rw [lapsing]
    congr 1
    apply List.filter_congr
    intro e he
    rw [← lapsing, Bool.eq_iff_iff, decide_eq_true_eq, hdecays.live, mem_lapsing, expired_shortened]
    simp [he]
  have hall := (valid_shortenLifetimes h.valid #[]).destroyMany_eq (nodup_lapsing h.valid)
    (lapsing_live #[] r)
  have hlist := toList_shortenLifetimes h.valid #[]
  rw [List.nil_append] at hlist
  rw [decay_eq h.valid hd]
  refine ⟨hdecays, ?_, rfl, ?_, decayFailed_not_mem #[] r⟩
  · rw [← hgone]
  · rw [hd, hlist, hall]
    exact ⟨_, rfl⟩

/-- Lifetimes of one, none and three ticks, an entity without a lifetime, and a lifetime that was
stored for a number that is not alive. The system has destroyed an entity before. -/
theorem decay_destroys_lapsing_stale :
    ∃ (r : Registry (Kind Empty)) (d : Decay), r.Reachable ∧ d.AtRest ∧ d.destroyed = 1 ∧
      r.entities = [⟨0⟩, ⟨1⟩, ⟨2⟩, ⟨3⟩] ∧ (r.pools.value? ⟨4⟩ .lifetime).map (·.ticks) = some 1 ∧
      lapsing r = [⟨0⟩, ⟨1⟩] ∧ Decays r (d.update r).state ∧ (d.update r).result.destroyed = 3 := by
  let r₀ : Registry (Kind Empty) := { sizing := ⟨0, 0⟩ }
  let r₁ := r₀.after [.command .create, .command (.assign ⟨0⟩ .lifetime ⟨1⟩)]
  let r := r₀.after [.command .create, .command .create, .command .create, .command .create,
    .command (.assign ⟨0⟩ .lifetime ⟨1⟩), .command (.assign ⟨1⟩ .lifetime ⟨0⟩),
    .command (.assign ⟨2⟩ .lifetime ⟨3⟩), .command (.assign ⟨3⟩ .health (Health.full 5)),
    .writePool .lifetime (.assign ⟨4⟩ ⟨1⟩)]
  let d : Decay := (({} : Decay).update r₁).result
  have hr : r.Reachable := (Registry.reachable_empty 0).after _
  have hd : d.AtRest := .update r₁ .fresh
  have hentities : r.entities = [⟨0⟩, ⟨1⟩, ⟨2⟩, ⟨3⟩] := by decide +kernel
  have hstale : (r.pools.value? ⟨4⟩ .lifetime).map (·.ticks) = some 1 := by decide +kernel
  have hlapsing : lapsing r = [⟨0⟩, ⟨1⟩] := by decide +kernel
  have hone : d.destroyed = 1 := by decide +kernel
  obtain ⟨hdecays, hcount, -⟩ := decay_destroys_lapsing hr hd
  refine ⟨r, d, hr, hd, hone, hentities, hstale, hlapsing, hdecays, ?_⟩
  have hgone : (r.entities.filter (· ∉ (d.update r).state.entities)).length = 2 := by decide +kernel
  rw [hcount, hone, hgone]

end TickWorld.Drift
