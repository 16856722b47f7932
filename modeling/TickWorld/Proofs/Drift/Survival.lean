import TickWorld.Proofs.Drift.Aging

namespace TickWorld.Drift

variable {ε : Type} [DecidableEq ε] [ComponentKind ε]

def agedBy (step : Float32) : Nat → Profile (Kind ε) → Option (Profile (Kind ε))
  | 0, p => some p
  | n + 1, p => (agedBy step n p).bind (aged step)

/-- Whether an entity with these components lives on for `n` ticks: it has no lifetime, or one that
is longer. -/
def outlasts (n : Nat) (p : Profile (Kind ε)) : Bool :=
  n = 0 || (p .lifetime).all (n < ·.ticks.toNat)

structure Ages (n : Nat) (p p' : Profile (Kind ε)) : Prop where
  lifetime : (p' .lifetime).map (·.ticks.toNat + n) = (p .lifetime).map (·.ticks.toNat)
  velocity : p' .velocity = p .velocity
  health : p' .health = p .health
  other : ∀ k, p' (.other k) = p (.other k)
  position : (p' .position).isSome = (p .position).isSome
  mana : (p' .mana).isSome = (p .mana).isSome

variable {step : Float32} {n m : Nat} {p p' p'' : Profile (Kind ε)}

omit [DecidableEq ε] in
theorem Ages.refl (p : Profile (Kind ε)) : Ages 0 p p := ⟨rfl, rfl, rfl, fun _ => rfl, rfl, rfl⟩

omit [DecidableEq ε] in
theorem Ages.trans (h : Ages n p p') (h' : Ages m p' p'') : Ages (n + m) p p'' where
  lifetime := by
    have hm : (p'' .lifetime).map (·.ticks.toNat + (n + m)) =
        ((p'' .lifetime).map (·.ticks.toNat + m)).map (· + n) := by
      rw [Option.map_map]
      congr 1
      funext l
      simp only [Function.comp_apply]
      omega
    rw [hm, h'.lifetime, Option.map_map]
    exact h.lifetime
  velocity := h'.velocity.trans h.velocity
  health := h'.health.trans h.health
  other k := (h'.other k).trans (h.other k)
  position := h'.position.trans h.position
  mana := h'.mana.trans h.mana

def lifespan (seed : UInt32) : Nat := 30 + seed.toNat % 90

/-- The entity is the drifter with a given seed, some ticks after it came. -/
structure IsDrifter (r : Registry (Kind ε)) (seed : UInt32) (age : Nat) (e : Entity) : Prop where
  lifetime : ∃ l, r.get? e .lifetime = some l ∧ l.ticks.toNat + age = lifespan seed
  velocity : r.get? e .velocity = drifterProfile seed .velocity
  health : r.get? e .health = some (Health.full 100)
  mana : (r.get? e .mana).isSome = true ↔ seed % 3 = 0
  position : (r.get? e .position).isSome = true
  other : ∀ k, r.get? e (.other k) = none

theorem toNat_lifetimeOf (seed : UInt32) : (lifetimeOf seed).ticks.toNat = lifespan seed := by
  have hs : (minLifetime + seed % lifetimeSpread).toNat = 30 + seed.toNat % 90 := by
    rw [UInt32.toNat_add, UInt32.toNat_mod, minLifetime, lifetimeSpread]
    have h30 : (30 : UInt32).toNat = 30 := rfl
    have h90 : (90 : UInt32).toNat = 90 := rfl
    rw [h30, h90]
    omega
  exact hs

theorem drifterProfile_eq (seed : UInt32) :
    (drifterProfile seed : Profile (Kind ε)) .lifetime = some (lifetimeOf seed) ∧
    (drifterProfile seed : Profile (Kind ε)) .health = some (Health.full 100) ∧
    ((drifterProfile seed : Profile (Kind ε)) .mana).isSome = decide (seed % 3 = 0) ∧
    ((drifterProfile seed : Profile (Kind ε)) .position).isSome = true ∧
    ∀ k, (drifterProfile seed : Profile (Kind ε)) (.other k) = none := by
  rw [drifterProfile, drifterComponents]
  split
  · rename_i hz
    refine ⟨rfl, rfl, ?_, rfl, fun _ => rfl⟩
    rw [decide_eq_true hz]
    rfl
  · rename_i hz
    refine ⟨rfl, rfl, ?_, rfl, fun _ => rfl⟩
    rw [decide_eq_false hz]
    rfl

end TickWorld.Drift
