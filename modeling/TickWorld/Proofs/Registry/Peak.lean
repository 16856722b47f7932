import Mathlib.Order.Bounds.Basic
import TickWorld.Proofs.Registry.Turnover

namespace TickWorld

variable {κ : Type} [DecidableEq κ] [ComponentKind κ]

namespace Registry

variable {r : Registry κ} {e : Entity} {as : List (Action κ)}

theorem Valid.size_le_issued (h : r.Valid) : r.size ≤ r.issued := by
  have hs := h.size_add
  omega

theorem Valid.size_of_none (h : r.Valid) (hw : r.recycled.toList = []) : r.size = r.issued := by
  have hs := h.size_add
  have hw' : r.recycled.size = 0 := by
    simpa [SparseSet.toList, SparseSet.size] using hw
  omega

/-- If an action issues a number, all issued numbers live after it. -/
theorem Valid.issued_run (h : r.Valid) (a : Action κ) :
    (a.run r).issued = r.issued ∨ (a.run r).size = (a.run r).issued := by
  cases ha : a.isCreate with
  | false => exact .inl (h.retires_run ha).issued
  | true =>
    rw [run_of_isCreate ha]
    cases hw : r.recycled.toList with
    | cons e es => exact .inl (h.create_of_recycled hw).2.2
    | nil =>
      rw [h.create_of_none hw]
      split
      · rename_i hi
        -- Still none waits.
        exact .inr ((h.takeFresh hi).enliven.size_of_none hw)
      · exact .inl rfl

theorem Valid.exists_prefix_size (h : r.Valid) (hr : r.size = r.issued) (as : List (Action κ)) :
    ∃ part, part <+: as ∧ (r.after part).size = (r.after as).issued := by
  induction as using List.reverseRecOn with
  | nil => exact ⟨[], List.prefix_rfl, hr⟩
  | append_singleton as a ih =>
    have ha : r.after (as ++ [a]) = a.run (r.after as) := r.after_append as [a]
    rw [ha]
    rcases (h.after as).1.issued_run a with hs | hs
    · obtain ⟨part, hp, hpart⟩ := ih
      exact ⟨part, hp.trans (List.prefix_append as [a]), hpart.trans hs.symm⟩
    · exact ⟨as ++ [a], List.prefix_rfl, ha ▸ hs⟩

theorem Valid.size_le_of_prefix (h : r.Valid) {part : List (Action κ)} (hp : part <+: as) :
    (r.after part).size ≤ (r.after as).issued := by
  obtain ⟨rest, rfl⟩ := hp
  have hv := (h.after part).1
  rw [after_append]
  exact hv.size_le_issued.trans (hv.after rest).2

theorem Valid.index_lt_create (h : r.Valid) (he : r.create.result = .ok e) :
    e.index < r.create.state.issued := by
  rcases h.create_cases with ⟨e', r₀, ht, hc, -⟩ | ⟨-, hc⟩
  · rw [hc] at he ⊢
    cases he
    exact ht.index_lt
  · rw [hc] at he
    cases he

theorem Valid.index_lt_of_created (h : r.Valid) (he : .ok e ∈ r.created as) :
    e.index < (r.after as).issued := by
  induction as generalizing r with
  | nil => cases he
  | cons a as ih =>
    rw [created] at he
    split at he
    · rename_i ha
      rcases List.mem_cons.mp he with he | he
      · have hi := h.index_lt_create he.symm
        rw [← run_of_isCreate ha] at hi
        exact hi.trans_le ((h.run a).after as).2
      · exact ih (h.run a) he
    · exact ih (h.run a) he

end Registry

/-- After every run as many numbers are issued as entities lived at one time at most, so the
number of every entity created is below that peak. -/
theorem issued_is_peak {sizing : Sizing} {r : Registry κ} (hr : Registry.ofSizing sizing = .ok r)
    (as : List (Action κ)) :
    IsGreatest {n | ∃ part, part <+: as ∧ (r.after part).size = n} (r.after as).issued ∧
      ∀ e, .ok e ∈ r.created as → ∃ part, part <+: as ∧ e.index < (r.after part).size := by
  have h := Registry.valid_ofSizing hr
  have hnone : r.recycled.toList = [] := by
    rw [Registry.ofSizing_eq_ok hr]
    rfl
  have hpeak := h.exists_prefix_size (h.size_of_none hnone) as
  constructor
  · refine ⟨hpeak, ?_⟩
    intro n hn
    obtain ⟨part, hp, rfl⟩ := hn
    exact h.size_le_of_prefix hp
  · intro e he
    obtain ⟨part, hp, hs⟩ := hpeak
    exact ⟨part, hp, hs ▸ h.index_lt_of_created he⟩

/-- Five entities are created, but never more than two live. -/
theorem issued_is_peak_churn :
    ∃ (r : Registry (Drift.Kind Empty)) (as : List (Action (Drift.Kind Empty))),
      Registry.ofSizing ⟨0, 0⟩ = .ok r ∧ as.countP Action.isCreate = 5 ∧
      IsGreatest {n | ∃ part, part <+: as ∧ (r.after part).size = n} 2 := by
  let r : Registry (Drift.Kind Empty) := { sizing := ⟨0, 0⟩ }
  let as : List (Action (Drift.Kind Empty)) := [.command .create, .command .create,
    .command (.destroy ⟨0⟩), .command .create, .command .reset, .command .create, .command .create]
  have hr : Registry.ofSizing ⟨0, 0⟩ = .ok r := rfl
  have hi : (r.after as).issued = 2 := by decide +kernel
  exact ⟨r, as, hr, rfl, hi ▸ (issued_is_peak hr as).1⟩

end TickWorld
