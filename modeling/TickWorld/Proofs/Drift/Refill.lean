import Mathlib.Logic.Function.Iterate
import TickWorld.Proofs.Drift.Aging

namespace TickWorld

variable {κ : Type} [DecidableEq κ] [ComponentKind κ]

/-- Registries that differ in the values of one kind at most: the same entities in the same order,
the same capacities, and the same owners in each pool. -/
structure Registry.SameBut (k : κ) (r r' : Registry κ) : Prop where
  live : r'.live = r.live
  recycled : r'.recycled = r.recycled
  issued : r'.issued = r.issued
  sizing : r'.sizing = r.sizing
  revalued : r.pools.Revalued r'.pools
  others : ∀ k' ≠ k, r'.pool? k' = r.pool? k'

namespace Registry.SameBut

variable {k : κ} {r r' r'' : Registry κ}

theorem refl (k : κ) (r : Registry κ) : r.SameBut k r :=
  ⟨rfl, rfl, rfl, rfl, ⟨rfl, rfl⟩, fun _ _ => rfl⟩

theorem trans (h : r.SameBut k r') (h' : r'.SameBut k r'') : r.SameBut k r'' where
  live := h'.live.trans h.live
  recycled := h'.recycled.trans h.recycled
  issued := h'.issued.trans h.issued
  sizing := h'.sizing.trans h.sizing
  revalued := h.revalued.trans h'.revalued
  others k' hk := (h'.others k' hk).trans (h.others k' hk)

theorem map (h : r.Valid) (f : Entity → ComponentKind.Value k → ComponentKind.Value k) :
    r.SameBut k (r.modifyPool k (·.map f)) where
  live := rfl
  recycled := rfl
  issued := rfl
  sizing := rfl
  revalued := r.pools.revalued_modify fun _ => rfl
  others _ hk := h.pools.get?_modify_of_ne (fun _ hp => hp.map f) hk

end Registry.SameBut

namespace Drift

theorem toNat_addSaturating (a b : UInt32) :
    (addSaturating a b).toNat = min (a.toNat + b.toNat) (UInt32.size - 1) := by
  rw [addSaturating]
  split
  · rename_i h
    rw [UInt32.toNat_add, Nat.mod_eq_of_lt h]
    omega
  · rename_i h
    have hmax : (0xFFFFFFFF : UInt32).toNat = UInt32.size - 1 := rfl
    omega

namespace Mana

/-- What a number of refills make of a value, reckoned without a greatest number. -/
structure Refilled (n : Nat) (m m' : Mana) : Prop where
  current : m'.current.toNat = min (m.current.toNat + n * m.regen.toNat) m.max.toNat
  max : m'.max = m.max
  regen : m'.regen = m.regen

theorem toNat_refill (m : Mana) :
    m.refill.current.toNat = min (m.current.toNat + m.regen.toNat) m.max.toNat := by
  have hmin : m.refill.current.toNat =
      min (addSaturating m.current m.regen).toNat m.max.toNat := by
    rw [refill]
    exact apply_ite UInt32.toNat _ _ _
  have hmax := m.max.toNat_lt_size
  rw [hmin, toNat_addSaturating]
  omega

theorem refilled_refill (m : Mana) : m.Refilled 1 m.refill :=
  ⟨by rw [toNat_refill, Nat.one_mul], rfl, rfl⟩

variable {n : Nat} {m m' m'' : Mana}

theorem Refilled.unique (h : m.Refilled n m') (h' : m.Refilled n m'') : m' = m'' := by
  obtain ⟨current, max, regen⟩ := m'
  obtain ⟨current', max', regen'⟩ := m''
  obtain rfl : current = current' := UInt32.toNat_inj.mp (h.current.trans h'.current.symm)
  obtain rfl : max = max' := h.max.trans h'.max.symm
  obtain rfl : regen = regen' := h.regen.trans h'.regen.symm
  rfl

/-- What the maximum cut off before is missing from the next sum, but that is cut as well. -/
theorem Refilled.refill (h : m.Refilled n m') : m.Refilled (n + 1) m'.refill where
  current := by
    rw [toNat_refill, h.current, h.max, h.regen, Nat.succ_mul]
    omega
  max := h.max
  regen := h.regen

theorem Refilled.le_max (h : m.Refilled n m') : m'.current ≤ m.max := by
  rw [UInt32.le_iff_toNat_le, h.current]
  exact Nat.min_le_right _ _

theorem Refilled.grows (h : m.Refilled n m') (hm : m.current ≤ m.max) : m.current ≤ m'.current := by
  rw [UInt32.le_iff_toNat_le] at hm ⊢
  rw [h.current]
  exact Nat.le_min.mpr ⟨Nat.le_add_right _ _, hm⟩

end Mana

variable {ε σ : Type} [DecidableEq ε] [ComponentKind ε] [SystemKind σ]
  [SystemBehavior (Kind ε) σ]

variable (σ) in
def refilledBy (n : Nat) (r : Registry (Kind ε)) : Registry (Kind ε) :=
  (fun r => (Role.update (.manaRegen : Role σ) () r).state)^[n] r

theorem refilledBy_succ (n : Nat) (r : Registry (Kind ε)) :
    refilledBy σ (n + 1) r = refillMana (refilledBy σ n r) :=
  Function.iterate_succ_apply' _ n r

variable {r : Registry (Kind ε)} {n : Nat}

theorem reachable_refilledBy (hr : r.Reachable) (n : Nat) : (refilledBy σ n r).Reachable := by
  induction n with
  | zero => exact hr
  | succ n ih =>
    rw [refilledBy_succ]
    exact ih.act (.writePool .mana (.map fun _ m => Mana.refill m))

theorem sameBut_refilledBy (hr : r.Reachable) (n : Nat) : r.SameBut .mana (refilledBy σ n r) := by
  induction n with
  | zero => exact .refl _ r
  | succ n ih =>
    rw [refilledBy_succ]
    exact ih.trans (.map (reachable_refilledBy hr n).valid _)

theorem value?_refilledBy (hr : r.Reachable) {e : Entity} {m : Mana}
    (hm : r.pools.value? e .mana = some m) (n : Nat) :
    ∃ m', (refilledBy σ (n + 1) r).pools.value? e .mana = some m' ∧ m.Refilled (n + 1) m' := by
  induction n with
  | zero =>
    refine ⟨m.refill, ?_, m.refilled_refill⟩
    rw [refilledBy_succ, value?_refillMana (reachable_refilledBy hr 0).valid]
    exact congrArg (Option.map Mana.refill) hm
  | succ n ih =>
    obtain ⟨m', hm', h⟩ := ih
    refine ⟨m'.refill, ?_, h.refill⟩
    rw [refilledBy_succ, value?_refillMana (reachable_refilledBy hr (n + 1)).valid, hm']
    rfl

/-- After one refill or more, each stored mana is the sum of all that was restored, cut at its
maximum, whether its owner is alive or not; nothing else is changed. -/
theorem refills_in_closed_form (hr : r.Reachable) (hn : 0 < n) :
    r.SameBut .mana (refilledBy σ n r) ∧
      (∀ e m, r.pools.value? e .mana = some m →
        ∃ m', (refilledBy σ n r).pools.value? e .mana = some m' ∧ m.Refilled n m' ∧
          m'.current ≤ m.max ∧ (m.current ≤ m.max → m.current ≤ m'.current)) ∧
      ∀ e m, r.get? e .mana = some m →
        ∃ m', (refilledBy σ n r).get? e .mana = some m' ∧ m.Refilled n m' := by
  obtain ⟨n, rfl⟩ := Nat.exists_eq_add_one.mpr hn
  have hs : r.SameBut .mana (refilledBy σ (n + 1) r) := sameBut_refilledBy hr (n + 1)
  refine ⟨hs, ?_, ?_⟩
  · intro e m hm
    obtain ⟨m', hm', h⟩ := value?_refilledBy (σ := σ) hr hm n
    exact ⟨m', hm', h, h.le_max, h.grows⟩
  · intro e m hm
    rw [Registry.get?] at hm ⊢
    have hlive : (refilledBy σ (n + 1) r).isLive e = r.isLive e := by
      rw [Registry.isLive, hs.live, Registry.isLive]
    rw [hlive]
    split at hm
    · rename_i he
      rw [if_pos he]
      exact value?_refilledBy hr hm n
    · cases hm

instance : DecidableEq (ComponentKind.Value (Kind.mana : Kind ε)) :=
  inferInstanceAs (DecidableEq Mana)

/-- One mana starts above its maximum, one near the greatest number, and one is not of a live
entity. -/
theorem refills_in_closed_form_extremes :
    ∃ r : Registry (Kind Empty), r.Reachable ∧ 0 < 3 ∧
      r.SameBut .mana (refilledBy Empty 3 r) ∧
      (refilledBy Empty 3 r).get? ⟨0⟩ .mana = some ⟨50, 50, 0xFFFFFFFF⟩ ∧
      (refilledBy Empty 3 r).get? ⟨1⟩ .mana = some ⟨0xFFFFFFFF, 0xFFFFFFFF, 0x80000000⟩ ∧
      (refilledBy Empty 3 r).pools.value? ⟨7⟩ .mana = some ⟨19, 20, 6⟩ := by
  let r₀ : Registry (Kind Empty) := { sizing := ⟨0, 0⟩ }
  let r := r₀.after [.command .create, .command .create,
    .command (.assign ⟨0⟩ .mana ⟨90, 50, 0xFFFFFFFF⟩),
    .command (.assign ⟨1⟩ .mana ⟨0xFFFFFFF0, 0xFFFFFFFF, 0x80000000⟩),
    .writePool .mana (.assign ⟨7⟩ ⟨1, 20, 6⟩)]
  have hr : r.Reachable := (Registry.reachable_empty 0).after _
  obtain ⟨hs, hvalues, hlive⟩ := refills_in_closed_form (σ := Empty) hr (n := 3) (by decide)
  obtain ⟨m₀, hm₀, h₀⟩ := hlive ⟨0⟩ ⟨90, 50, 0xFFFFFFFF⟩ (by decide +kernel)
  obtain ⟨m₁, hm₁, h₁⟩ := hlive ⟨1⟩ ⟨0xFFFFFFF0, 0xFFFFFFFF, 0x80000000⟩ (by decide +kernel)
  obtain ⟨m₇, hm₇, h₇, -⟩ := hvalues ⟨7⟩ ⟨1, 20, 6⟩ (by decide +kernel)
  refine ⟨r, hr, by decide, hs, ?_, ?_, ?_⟩
  · exact hm₀.trans (congrArg some (h₀.unique ⟨by decide, rfl, rfl⟩))
  · exact hm₁.trans (congrArg some (h₁.unique ⟨by decide, rfl, rfl⟩))
  · exact hm₇.trans (congrArg some (h₇.unique ⟨by decide, rfl, rfl⟩))

end Drift

end TickWorld
