import TickWorld.Proofs.Schedule.Confined
import TickWorld.Drift.Behavior

namespace TickWorld.Drift

open Registry (Leads leads_run leads_perform)

variable {ε : Type} [DecidableEq ε] [ComponentKind ε]

theorem leads_assignAll {κ : Type} [DecidableEq κ] [ComponentKind κ] (e : Entity)
    (components : List (Bound κ)) (r : Registry κ) : r.Leads (assignAll r e components).state := by
  induction components generalizing r with
  | nil => exact .refl r
  | cons component rest ih =>
    obtain ⟨k, value⟩ := component
    apply (r.leads_perform (.assign e k value)).trans
    simp only [assignAll, Outcome.bind, Command.perform]
    split
    · exact .refl _
    · exact ih _

theorem leads_spawn (r : Registry (Kind ε)) (seed : UInt32) : r.Leads (spawn r seed).state := by
  apply (r.leads_perform .create).trans
  simp only [spawn, Outcome.bind, Command.perform]
  split
  · exact .refl _
  · exact leads_assignAll _ _ _

theorem leads_spawnUpTo (n : Nat) (s : Spawner) (r : Registry (Kind ε)) (events : Array Event) :
    r.Leads (s.spawnUpTo r events n).state := by
  induction n generalizing s r events with
  | zero => exact .refl r
  | succ n ih =>
    have hs := leads_spawn r s.nextSeed
    rw [Spawner.spawnUpTo]
    split
    · rename_i he
      rw [he] at hs
      exact hs
    · rename_i he
      rw [he] at hs
      exact hs.trans (ih _ _ _)

theorem leads_movement (m : Movement) (r : Registry (Kind ε)) : r.Leads (m.update r).state :=
  r.leads_run (.forEach _ _ _)

theorem leads_refillMana (r : Registry (Kind ε)) : r.Leads (refillMana r) :=
  r.leads_run (.writePool .mana (.map fun _ m => Mana.refill m))

theorem leads_decay (d : Decay) (r : Registry (Kind ε)) : r.Leads (d.update r).state := by
  have hs : r.Leads (shortenLifetimes d.expired r).state := r.leads_run (.forEach _ _ _)
  have hd := (shortenLifetimes d.expired r).state.leads_perform
    (.destroyMany (shortenLifetimes d.expired r).result.toList)
  apply hs.trans
  simp only [Command.perform] at hd
  simp only [Decay.update, Outcome.bind]
  split
  · rename_i he
    rw [he] at hd
    exact hd
  · rename_i he
    rw [he] at hd
    exact hd

theorem leads_console (c : Console) (r : Registry (Kind ε)) : r.Leads (c.update r).state := by
  rw [Console.update]
  split
  · exact .refl r
  · exact .refl r

variable {σ : Type} [SystemKind σ] [SystemBehavior (Kind ε) σ]

instance [Confined (Kind ε) σ] : Confined (Kind ε) (Role σ) where
  attach role state r := by
    cases role with
    | other s => exact Confined.attach s state r
    | console => exact .refl r
    | spawner => exact .refl r
    | movement => exact .refl r
    | manaRegen => exact .refl r
    | decay => exact .refl r
  update role state r := by
    cases role with
    | other s => exact Confined.update s state r
    | console => exact leads_console state r
    | spawner => exact leads_spawnUpTo _ state r #[]
    | movement => exact leads_movement state r
    | manaRegen => exact leads_refillMana r
    | decay => exact leads_decay state r

instance : Confined (Kind ε) Empty where
  attach := nofun
  update := nofun

end TickWorld.Drift
