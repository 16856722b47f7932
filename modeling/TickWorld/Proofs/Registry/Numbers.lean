import TickWorld.Proofs.Registry.Walk
import TickWorld.Proofs.Drift.Confined

namespace TickWorld

variable {κ : Type} [DecidableEq κ] [ComponentKind κ]

namespace Registry

variable {r r' : Registry κ}

/-- The live and the waiting numbers are a partition of the issued ones, which are below that of
the null handle. -/
structure Partitioned (r : Registry κ) : Prop where
  live_nodup : (r.entities.map Entity.index).Nodup
  waiting_nodup : (r.recycled.toList.map Entity.index).Nodup
  disjoint : ∀ n ∈ r.entities.map Entity.index, n ∉ r.recycled.toList.map Entity.index
  covered : ∀ n, n ∈ r.entities.map Entity.index ∨ n ∈ r.recycled.toList.map Entity.index ↔
    n < r.issued
  size_add : r.size + r.recycled.size = r.issued
  issued_le : r.issued ≤ 0xFFFFFFFF

/-- Creation does not answer a live entity or the null handle. -/
def CreatesFresh (r : Registry κ) : Prop :=
  ∀ e, r.create.result = .ok e → e ∉ r.entities ∧ e ≠ .null

/-- Every entity that is live or waiting in the first registry is so in the second. -/
def KeptBy (r r' : Registry κ) : Prop :=
  ∀ e, e ∈ r.entities ∨ e ∈ r.recycled.toList → e ∈ r'.entities ∨ e ∈ r'.recycled.toList

theorem Valid.partitioned (h : r.Valid) : r.Partitioned := by
  have hp := h.partition
  have hn := hp.nodup_iff.mpr List.nodup_range
  rw [List.map_append] at hp hn
  obtain ⟨hl, hw, hd⟩ := List.nodup_append.mp hn
  refine ⟨hl, hw, fun n hn hm => hd n hn n hm rfl, fun n => ?_, h.size_add, h.issued_le⟩
  rw [← List.mem_append, hp.mem_iff, List.mem_range]

theorem Valid.createsFresh (h : r.Valid) : r.CreatesFresh := by
  intro e he
  rcases h.create_cases with ⟨e', r₀, ht, hc, hl, -⟩ | ⟨-, hc⟩
  · rw [hc] at he
    cases he
    have hm := ht.not_mem
    rw [entities, hl] at hm
    exact ⟨hm, ht.ne_null⟩
  · rw [hc] at he
    cases he

theorem Valid.keptBy (h : r.Valid) (h' : r'.Valid) (hi : r.issued ≤ r'.issued) : r.KeptBy r' := by
  intro e he
  rw [← List.mem_append, h.mem_append_iff] at he
  rw [← List.mem_append, h'.mem_append_iff]
  exact Nat.lt_of_lt_of_le he hi

omit [DecidableEq κ] in
theorem issued_foldl_retire (r : Registry κ) (es : List Entity) :
    (es.foldl retire r).issued = r.issued := by
  rw [foldl_retire_eq]

omit [DecidableEq κ] in
theorem issued_destroyCounting (r : Registry κ) (n : Nat) (es : List Entity) :
    (r.destroyCounting n es).state.issued = r.issued := by
  induction es generalizing r n with
  | nil => rfl
  | cons e es ih =>
    rw [destroyCounting]
    split
    · exact ih _ _
    · rfl

theorem issued_le_perform (r : Registry κ) (c : Command κ) :
    r.issued ≤ (c.perform r).state.issued := by
  cases hc : c.aboutComponents with
  | true =>
    obtain ⟨t, ht⟩ := exists_pools_perform hc r
    exact Nat.le_of_eq (congrArg issued ht).symm
  | false =>
    cases c with
    | create =>
      simp only [Command.perform, create]
      split
      · exact Nat.le_refl _
      · split
        · exact Nat.le_succ _
        · exact Nat.le_refl _
    | destroy e =>
      simp only [Command.perform, destroy]
      split <;> exact Nat.le_refl _
    | destroyMany es => exact Nat.le_of_eq (issued_destroyCounting r 0 es).symm
    | destroyWith q => exact Nat.le_of_eq (issued_foldl_retire r (r.matching q)).symm
    | reset => exact Nat.le_refl _
    | _ => cases hc

theorem Valid.issued_le_run (h : r.Valid) (a : Action κ) : r.issued ≤ (a.run r).issued := by
  cases ha : a.aboutComponents with
  | true =>
    obtain ⟨t, ht⟩ := exists_pools_run ha r
    exact Nat.le_of_eq (congrArg issued ht).symm
  | false =>
    cases a with
    | command c => exact issued_le_perform r c
    | reserve n =>
      simp only [Action.run]
      split
      · rename_i hr
        exact Nat.le_of_eq (h.reserve hr).2.2.2.1.symm
      · exact Nat.le_refl _
    | _ => cases ha

theorem Valid.after (h : r.Valid) (as : List (Action κ)) :
    (r.after as).Valid ∧ r.issued ≤ (r.after as).issued := by
  induction as generalizing r with
  | nil => exact ⟨h, Nat.le_refl _⟩
  | cons a as ih =>
    obtain ⟨hv, hi⟩ := ih (h.run a)
    exact ⟨hv, Nat.le_trans (h.issued_le_run a) hi⟩

theorem Reachable.keptBy_leads (h : r.Reachable) (hl : r.Leads r') : r.KeptBy r' := by
  obtain ⟨as, rfl⟩ := hl
  obtain ⟨hv, hi⟩ := h.valid.after as
  exact h.valid.keptBy hv hi

end Registry

variable {σ : Type} [DecidableEq σ] [SystemKind σ] [SystemBehavior κ σ]

/-- Numbers are partitioned in every reachable registry, whatever actions or confined systems led
to it, and every further action or call keeps all of them. -/
theorem numbers_partitioned [Confined κ σ] :
    (∀ r : Registry κ, r.Reachable →
      r.Partitioned ∧ r.CreatesFresh ∧ ∀ a : Action κ, r.KeptBy (a.run r)) ∧
    (∀ x : Schedule κ σ, x.Reachable →
      x.registry.Partitioned ∧ x.registry.CreatesFresh ∧
        x.registry.KeptBy x.update.state.registry ∧
        ∀ (s : σ) (state : SystemKind.State s),
          x.registry.KeptBy (x.add s state).state.registry) := by
  refine ⟨fun r h => ⟨h.valid.partitioned, h.valid.createsFresh, fun a => ?_⟩, fun x hx => ?_⟩
  · exact h.keptBy_leads (r.leads_run a)
  · have h := hx.registry
    refine ⟨h.valid.partitioned, h.valid.createsFresh, h.keptBy_leads x.leads_update, ?_⟩
    exact fun s state => h.keptBy_leads (x.leads_add s state)

/-- Two entities are created and the first is destroyed, then a system of the drifting world runs
over the registry. -/
theorem numbers_partitioned_drift :
    ∃ x : Schedule (Drift.Kind Empty) (Drift.Role Empty), x.Reachable ∧
      x.registry.entities = [⟨1⟩] ∧ x.registry.recycled.toList = [⟨0⟩] ∧
      x.registry.Partitioned := by
  let r : Registry (Drift.Kind Empty) := { sizing := ⟨0, 0⟩ }
  let r' := r.after [.command .create, .command .create, .command (.destroy ⟨0⟩)]
  let x : Schedule (Drift.Kind Empty) (Drift.Role Empty) := .ofRegistry r'
  let decay : Drift.Decay := {}
  have hr : r.Reachable := Registry.reachable_empty 0
  have hx : (x.add .decay decay).state.update.state.Reachable :=
    .update (.add _ _ (.ofRegistry (hr.after _)))
  exact ⟨_, hx, by decide, by decide, (numbers_partitioned.2 _ hx).1⟩

end TickWorld
