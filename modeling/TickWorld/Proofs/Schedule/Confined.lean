import TickWorld.Proofs.Registry.Action
import TickWorld.Schedule

namespace TickWorld

variable {κ σ : Type} [DecidableEq κ] [ComponentKind κ] [SystemKind σ]

namespace Registry

def Leads (r r' : Registry κ) : Prop := ∃ as : List (Action κ), r' = r.after as

theorem Leads.refl (r : Registry κ) : r.Leads r := ⟨[], rfl⟩

theorem Leads.trans {r r' r'' : Registry κ} (h : r.Leads r') (h' : r'.Leads r'') :
    r.Leads r'' := by
  obtain ⟨as, rfl⟩ := h
  obtain ⟨bs, rfl⟩ := h'
  exact ⟨as ++ bs, (r.after_append as bs).symm⟩

theorem leads_run (r : Registry κ) (a : Action κ) : r.Leads (a.run r) := ⟨[a], rfl⟩

theorem leads_perform (r : Registry κ) (c : Command κ) : r.Leads (c.perform r).state :=
  r.leads_run (.command c)

theorem Reachable.leads {r r' : Registry κ} (h : r.Reachable) (hl : r.Leads r') :
    r'.Reachable := by
  obtain ⟨as, rfl⟩ := hl
  exact h.after as

end Registry

variable (κ σ) in
/-- A family of systems that act on the registry by its public operations only. -/
class Confined [SystemBehavior κ σ] : Prop where
  attach : ∀ (s : σ) (state : SystemKind.State s) (r : Registry κ),
    r.Leads (SystemBehavior.attach s state r).state
  update : ∀ (s : σ) (state : SystemKind.State s) (r : Registry κ),
    r.Leads (SystemBehavior.update s state r).state

variable [SystemBehavior κ σ]

theorem Installed.leads_tick [Confined κ σ] (system : Installed σ) (r : Registry κ) :
    r.Leads (system.tick r).state := by
  obtain ⟨kind, state, active⟩ := system
  cases active with
  | false => exact .refl r
  | true => exact Confined.update kind state r

namespace Schedule

theorem leads_runSlots [Confined κ σ] (slots : List (Option (Installed σ))) (r : Registry κ) :
    r.Leads (runSlots r slots).state := by
  induction slots generalizing r with
  | nil => exact .refl r
  | cons slot slots ih =>
    cases slot with
    | none => exact ih r
    | some system => exact (system.leads_tick r).trans (ih _)

theorem leads_update [Confined κ σ] (x : Schedule κ σ) :
    x.registry.Leads x.update.state.registry :=
  leads_runSlots x.slots x.registry

variable [DecidableEq σ]

/-- The schedules that calls and actions on their registry lead to, from an empty schedule bound to
a reachable registry. -/
inductive Reachable : Schedule κ σ → Prop where
  | ofRegistry {r : Registry κ} : r.Reachable → Reachable (ofRegistry r)
  | add {x : Schedule κ σ} (s : σ) (state : SystemKind.State s) :
    Reachable x → Reachable (x.add s state).state
  | remove {x : Schedule κ σ} (s : σ) : Reachable x → Reachable (x.remove s).state
  | setActive {x : Schedule κ σ} (s : σ) (active : Bool) :
    Reachable x → Reachable (x.setActive s active).state
  | modify {x : Schedule κ σ} (s : σ) (f : SystemKind.State s → SystemKind.State s) :
    Reachable x → Reachable (x.modify s f)
  | update {x : Schedule κ σ} : Reachable x → Reachable x.update.state
  | act {x : Schedule κ σ} (a : Action κ) :
    Reachable x → Reachable { x with registry := a.run x.registry }

variable (x : Schedule κ σ)

theorem leads_add [Confined κ σ] (s : σ) (state : SystemKind.State s) :
    x.registry.Leads (x.add s state).state.registry := by
  have hp (y : Schedule κ σ) (system : Installed σ) :
      (y.place system).state.registry = y.registry := by
    simp only [place]
    split <;> rfl
  simp only [add, hp]
  exact Confined.attach s state x.registry

omit [DecidableEq κ] [SystemBehavior κ σ] in
theorem registry_remove (s : σ) : (x.remove s).state.registry = x.registry := by
  simp only [remove]
  split <;> rfl

omit [DecidableEq κ] [SystemBehavior κ σ] in
theorem registry_setActive (s : σ) (active : Bool) :
    (x.setActive s active).state.registry = x.registry := by
  simp only [setActive]
  split <;> rfl

omit [DecidableEq κ] [SystemBehavior κ σ] in
theorem registry_modify (s : σ) (f : SystemKind.State s → SystemKind.State s) :
    (x.modify s f).registry = x.registry := by
  simp only [modify]
  split
  · split <;> rfl
  · rfl

variable {x}

theorem Reachable.registry [Confined κ σ] (h : x.Reachable) : x.registry.Reachable := by
  induction h with
  | ofRegistry hr => exact hr
  | @add x s state _ ih => exact ih.leads (x.leads_add s state)
  | @remove x s _ ih =>
    rw [x.registry_remove]
    exact ih
  | @setActive x s active _ ih =>
    rw [x.registry_setActive]
    exact ih
  | @modify x s f _ ih =>
    rw [x.registry_modify]
    exact ih
  | @update x _ ih => exact ih.leads x.leads_update
  | act a _ ih => exact ih.act a

end Schedule

end TickWorld
