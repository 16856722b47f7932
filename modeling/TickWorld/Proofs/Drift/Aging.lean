import TickWorld.Proofs.Drift.Spawn

namespace TickWorld.Drift

open Registry (Stocked)

variable {ε : Type} [DecidableEq ε] [ComponentKind ε]

def moved (step : Float32) (p : Profile (Kind ε)) : Profile (Kind ε) :=
  match p .position, p .velocity with
  | some x, some v => Function.update p .position (some (x.advance v step))
  | _, _ => p

def refilled (p : Profile (Kind ε)) : Profile (Kind ε) :=
  Function.update p .mana ((p .mana).map Mana.refill)

def shortened (p : Profile (Kind ε)) : Profile (Kind ε) :=
  Function.update p .lifetime ((p .lifetime).map Lifetime.shorten)

def ticked (step : Float32) (p : Profile (Kind ε)) : Profile (Kind ε) :=
  shortened (refilled (moved step p))

def expired (p : Profile (Kind ε)) : Bool := (p .lifetime).any (·.ticks = 0)

/-- What a tick makes of an entity's components, or nothing if the entity does not live on. -/
def aged (step : Float32) (p : Profile (Kind ε)) : Option (Profile (Kind ε)) :=
  if expired (ticked step p) then none else some (ticked step p)

variable {r : Registry (Kind ε)}

def Movement.row (m : Movement) :
    Row Value [Kind.position, (.velocity : Kind ε)] →
      Row Value [Kind.position, (.velocity : Kind ε)]
  | .cons x (.cons v .nil) => .cons (x.advance v m.step) (.cons v .nil)

theorem movement_eq (m : Movement) (r : Registry (Kind ε)) :
    m.update r = (r.forEach [.position, .velocity] (fun s _ row => (s, m.row row)) ()).map
      fun _ => m := by
  rw [Movement.update]
  congr 2
  funext s e row
  obtain _ | ⟨x, _ | ⟨v, _ | _⟩⟩ := row
  rfl

theorem get?_movement (h : r.Valid) (m : Movement) {e : Entity} (he : e ∈ r.entities) :
    (m.update r).state.get? e = moved m.step (r.get? e) := by
  have h' : (m.update r).state.Valid := h.valid_forEach ()
  have he' : e ∈ (m.update r).state.entities := by
    rw [movement_eq, Outcome.map, r.entities_forEach]
    exact he
  have hrow {r : Registry (Kind ε)} (h : r.Valid) (he : e ∈ r.entities) (x : Position)
      (v : Velocity) : r.pools.fetch e [.position, .velocity] = .ok (.cons x (.cons v .nil)) ↔
        r.get? e .position = some x ∧ r.get? e .velocity = some v := by
    rw [Pools.fetch_cons_eq_ok_iff, Pools.fetch_cons_eq_ok_iff, h.get?_of_mem he, h.get?_of_mem he]
    simp [Pools.fetch]
  rw [movement_eq, Outcome.map] at h' he' ⊢
  rw [moved]
  split
  · rename_i x v hx hv
    have hf := h.fetch_forEach (f := fun s _ row => (s, m.row row)) (g := fun _ row => m.row row)
      (fun _ _ _ => rfl) (by simp) () he ((hrow h he x v).mpr ⟨hx, hv⟩)
    obtain ⟨hx', hv'⟩ := (hrow h' he' _ v).mp hf
    funext k
    by_cases hk : k = .position
    · subst k
      rw [hx', Function.update_self]
    · rw [Function.update_of_ne hk]
      by_cases hk' : k = .velocity
      · subst k
        rw [hv', hv]
      · exact h.get?_forEach_of_same () (.inl (by simp [hk, hk']))
  · rename_i hn
    funext k
    refine h.get?_forEach_of_same () (.inr ?_)
    intro row hr
    obtain _ | ⟨x, _ | ⟨v, _ | _⟩⟩ := row
    obtain ⟨hx, hv⟩ := (hrow h he x v).mp hr
    exact hn x v hx hv

theorem roll_movement (h : r.Valid) (m : Movement) :
    (m.update r).state.roll = r.roll.map (Prod.map id (moved m.step)) :=
  Registry.roll_map (r.entities_forEach ()) fun _ he => get?_movement h m he

theorem stocked_movement (h : r.Valid) (m : Movement) {k : Kind ε} (hk : r.Stocked k) :
    (m.update r).state.Stocked k :=
  hk.mono (r.sizing_forEach ()) fun hp => (h.hasPool_forEach () k).trans hp

theorem value?_refillMana (h : r.Valid) (e : Entity) :
    (refillMana r).pools.value? e .mana = (r.pools.value? e .mana).map Mana.refill := by
  refine (h.pools.value?_modify_self (fun _ hp => hp.map _) e).trans ?_
  rw [Pools.value?]
  cases hp : r.pools.get? .mana with
  | none => rfl
  | some p => exact (h.pools.pool hp).get?_map _ e

theorem get?_refillMana (h : r.Valid) {e : Entity} (he : e ∈ r.entities) :
    (refillMana r).get? e = refilled (r.get? e) := by
  have hf : ∀ p : Pool (.mana : Kind ε), p.Valid → (p.map fun _ m => Mana.refill m).Valid :=
    fun _ hp => hp.map _
  have h' : (refillMana r).Valid := h.withPools (h.pools.modify hf)
  funext k
  rw [h'.get?_of_mem he, refilled]
  by_cases hk : k = .mana
  · subst k
    rw [Function.update_self, h.get?_of_mem he]
    exact value?_refillMana h e
  · rw [Function.update_of_ne hk, h.get?_of_mem he]
    exact h.pools.value?_modify_of_ne hf hk e

theorem roll_refillMana (h : r.Valid) :
    (refillMana r).roll = r.roll.map (Prod.map id refilled) :=
  Registry.roll_map rfl fun _ he => get?_refillMana h he

theorem stocked_refillMana (h : r.Valid) {k : Kind ε} (hk : r.Stocked k) :
    (refillMana r).Stocked k :=
  hk.mono rfl fun hp => (h.pools.contains_modify (fun _ hv => hv.map _) k).trans hp

/-- The entities whose lifetime is over after this tick, in registry order. -/
def lapsing (r : Registry (Kind ε)) : List Entity :=
  r.entities.filter fun e => (r.get? e .lifetime).any (·.ticks ≤ 1)

theorem Lifetime.toNat_shorten (l : Lifetime) : l.shorten.ticks.toNat = l.ticks.toNat - 1 := by
  rw [Lifetime.shorten]
  split
  · rename_i hz
    rw [hz]
    rfl
  · rename_i hz
    have hle : (1 : UInt32) ≤ l.ticks := by
      rw [UInt32.le_iff_toNat_le, UInt32.toNat_one, Nat.one_le_iff_ne_zero]
      exact fun h => hz (UInt32.toNat_inj.mp h)
    rw [UInt32.toNat_sub_of_le _ _ hle, UInt32.toNat_one]

theorem Lifetime.shorten_eq_zero_iff (l : Lifetime) : l.shorten.ticks = 0 ↔ l.ticks ≤ 1 := by
  rw [← UInt32.toNat_inj, Lifetime.toNat_shorten, UInt32.le_iff_toNat_le, UInt32.toNat_one,
    UInt32.toNat_zero]
  omega

theorem expired_shortened (p : Profile (Kind ε)) :
    expired (shortened p) = (p .lifetime).any (·.ticks ≤ 1) := by
  rw [expired, shortened, Function.update_self, Option.any_map]
  congr 1
  funext l
  exact decide_eq_decide.mpr l.shorten_eq_zero_iff

theorem mem_lapsing {e : Entity} :
    e ∈ lapsing r ↔ e ∈ r.entities ∧ expired (shortened (r.get? e)) = true := by
  rw [lapsing, List.mem_filter, expired_shortened]

theorem nodup_lapsing (h : r.Valid) : (lapsing r).Nodup := h.live.nodup.filter _

def shortenRow : Row Value [(.lifetime : Kind ε)] → Row Value [(.lifetime : Kind ε)] × Bool
  | .cons l .nil => (.cons l.shorten .nil, l.shorten.ticks = 0)

theorem shortenLifetimes_eq (s : Array Entity) (r : Registry (Kind ε)) :
    shortenLifetimes s r = (r.forEach [.lifetime] (fun s e row =>
      (if (shortenRow row).2 then s.push e else s, (shortenRow row).1)) s).map (·.2) := by
  rw [shortenLifetimes]
  congr 2
  funext s e row
  obtain _ | ⟨l, _ | _⟩ := row
  simp [shortenRow]

theorem fetch_lifetime (h : r.Valid) {e : Entity} (he : e ∈ r.entities) (l : Lifetime) :
    r.pools.fetch e [.lifetime] = .ok (.cons l .nil) ↔ r.get? e .lifetime = some l := by
  rw [Pools.fetch_cons_eq_ok_iff, h.get?_of_mem he]
  simp [Pools.fetch]

theorem valid_shortenLifetimes (h : r.Valid) (s : Array Entity) :
    (shortenLifetimes s r).state.Valid := h.valid_forEach s

theorem entities_shortenLifetimes (s : Array Entity) (r : Registry (Kind ε)) :
    (shortenLifetimes s r).state.entities = r.entities := r.entities_forEach s

theorem get?_shortenLifetimes (h : r.Valid) (s : Array Entity) {e : Entity}
    (he : e ∈ r.entities) : (shortenLifetimes s r).state.get? e = shortened (r.get? e) := by
  have h' := valid_shortenLifetimes h s
  have he' : e ∈ (shortenLifetimes s r).state.entities := by
    rw [entities_shortenLifetimes]
    exact he
  rw [shortenLifetimes_eq, Outcome.map] at h' he' ⊢
  funext k
  rw [shortened]
  by_cases hk : k = .lifetime
  · subst k
    rw [Function.update_self]
    cases hl : r.get? e .lifetime with
    | some l =>
      rw [Option.map_some, ← fetch_lifetime h' he']
      exact h.fetch_forEach (g := fun _ row => (shortenRow row).1) (fun _ _ _ => rfl) (by simp)
        s he ((fetch_lifetime h he l).mpr hl)
    | none =>
      refine (h.get?_forEach_of_same s (.inr ?_)).trans hl
      intro row hr
      obtain _ | ⟨l, _ | _⟩ := row
      rw [fetch_lifetime h he, hl] at hr
      cases hr
  · rw [Function.update_of_ne hk]
    exact h.get?_forEach_of_same s (.inl (by simpa using hk))

theorem map_fst_filter_rows (h : r.Valid) :
    ((r.rows [.lifetime]).filter fun x => (shortenRow x.2).2).map Prod.fst = lapsing r := by
  rw [Registry.rows, Pools.rows, List.filter_filterMap, List.map_filterMap, lapsing,
    ← List.filterMap_eq_filter]
  apply List.filterMap_congr
  intro e he
  cases hl : r.get? e .lifetime with
  | none =>
    have hn : (r.pools.fetch e [.lifetime]).toOption = none := by
      cases hf : r.pools.fetch e [.lifetime] with
      | error cause => rfl
      | ok row =>
        obtain _ | ⟨l, _ | _⟩ := row
        rw [fetch_lifetime h he, hl] at hf
        cases hf
    simp [hn, Option.guard, hl]
  | some l =>
    rw [(fetch_lifetime h he l).mpr hl]
    by_cases hz : l.ticks ≤ 1
    · simp [Except.toOption, Option.filter, shortenRow, Option.guard, hl, l.shorten_eq_zero_iff, hz]
    · simp [Except.toOption, Option.filter, shortenRow, Option.guard, hl, l.shorten_eq_zero_iff, hz]

theorem toList_shortenLifetimes (h : r.Valid) (s : Array Entity) :
    (shortenLifetimes s r).result.toList = s.toList ++ lapsing r := by
  rw [shortenLifetimes_eq, Outcome.map, h.result_forEach (by simp), ← List.foldl_filter,
    List.foldl_push_eq_append, ← map_fst_filter_rows h]
  simp

theorem roll_shortenLifetimes (h : r.Valid) (s : Array Entity) :
    (shortenLifetimes s r).state.roll = r.roll.map (Prod.map id shortened) :=
  Registry.roll_map (entities_shortenLifetimes s r) fun _ he => get?_shortenLifetimes h s he

theorem lapsing_live (s : Array Entity) (r : Registry (Kind ε)) :
    ∀ e ∈ lapsing r, e ∈ (shortenLifetimes s r).state.entities := by
  intro e he
  rw [entities_shortenLifetimes]
  exact (mem_lapsing.mp he).1

/-- If no entities are listed at first, then those that are listed in the walk are all
destroyed. -/
theorem decay_eq (h : r.Valid) {d : Decay} (hd : d.expired = #[]) :
    d.update r = ⟨⟨#[], d.destroyed + (lapsing r).length⟩,
      (lapsing r).foldl Registry.retire (shortenLifetimes #[] r).state,
      (shortenLifetimes #[] r).events⟩ := by
  have hl := toList_shortenLifetimes h #[]
  rw [List.nil_append] at hl
  simp only [Decay.update, Outcome.bind, hd, hl, Array.append_empty,
    (valid_shortenLifetimes h #[]).destroyMany_eq (nodup_lapsing h) (lapsing_live #[] r)]

theorem roll_decay (h : r.Valid) {d : Decay} (hd : d.expired = #[]) :
    (d.update r).state.roll.Perm
      ((r.roll.map (Prod.map id shortened)).filter fun x => !expired x.2) := by
  have h' := valid_shortenLifetimes h #[]
  rw [decay_eq h hd]
  refine (h'.roll_foldl_retire (nodup_lapsing h) (lapsing_live #[] r)).trans ?_
  rw [roll_shortenLifetimes h]
  refine .of_eq (List.filter_congr ?_)
  intro x hx
  obtain ⟨⟨e, p⟩, hy, rfl⟩ := List.mem_map.mp hx
  obtain ⟨he, hp⟩ : e ∈ r.entities ∧ r.get? e = p := Registry.mem_roll.mp hy
  have hm : e ∈ lapsing r ↔ expired (shortened p) = true := by
    rw [mem_lapsing, ← hp]
    exact and_iff_right he
  simp [hm]

theorem stocked_decay (h : r.Valid) {d : Decay} (hd : d.expired = #[]) {k : Kind ε}
    (hk : r.Stocked k) : (d.update r).state.Stocked k := by
  rw [decay_eq h hd]
  apply hk.mono
  · rw [Registry.sizing_foldl_retire]
    exact r.sizing_forEach #[]
  · intro hp
    rw [Registry.hasPool_foldl_retire]
    exact (h.hasPool_forEach #[] k).trans hp

end TickWorld.Drift
