import TickWorld.Proofs.Storage.Pool
import TickWorld.Registry.Selection

namespace TickWorld

variable {κ : Type} [ComponentKind κ]

variable (κ) in
/-- A request to change entities or their components. -/
inductive Command where
  | create
  | destroy (e : Entity)
  | destroyMany (es : List Entity)
  | destroyWith (q : List κ)
  | reset
  | assign (e : Entity) (k : κ) (value : Value k)
  | replace (e : Entity) (k : κ) (value : Value k)
  | assignOrReplace (e : Entity) (k : κ) (value : Value k)
  | delete (e : Entity) (q : List κ)
  | resetPools (q : List κ)
  /-- Reads the component of an entity and writes it back changed. -/
  | modify (e : Entity) (k : κ) (f : Value k → Value k)
  /-- Reads several components of an entity and writes them back changed. -/
  | modifyMany (e : Entity) (q : List κ) (f : Row Value q → Row Value q)

@[reducible] def Command.Answer : Command κ → Type
  | create => Except Failure Entity
  | destroy _ => Except Failure Unit
  | destroyMany _ => Except Failure Nat
  | destroyWith _ => Nat
  | reset => Unit
  | assign .. => Except Failure Unit
  | replace _ k _ => Except Failure (Value k)
  | assignOrReplace .. => Except Failure Unit
  | delete .. => Except Failure Unit
  | resetPools _ => Unit
  | modify _ k _ => Option (Value k)
  | modifyMany _ q _ => Except Failure (Row Value q)

variable [DecidableEq κ]

/-- Reads several components of an entity and writes them back changed. -/
def Registry.modifyMany (r : Registry κ) (e : Entity) (q : List κ)
    (f : Row Value q → Row Value q) : Outcome (Registry κ) (Except Failure (Row Value q)) :=
  match r.getMany e q with
  | .error cause => ⟨.error cause, r, #[]⟩
  | .ok row => ⟨.ok row, r.putMany e (f row), #[]⟩

def Command.perform : (c : Command κ) → Registry κ → Outcome (Registry κ) c.Answer
  | create, r => r.create
  | destroy e, r => r.destroy e
  | destroyMany es, r => r.destroyMany es
  | destroyWith q, r => r.destroyWith q
  | reset, r => r.reset
  | assign e k value, r => r.assign e k value
  | replace e k value, r => r.replace e k value
  | assignOrReplace e k value, r => r.assignOrReplace e k value
  | delete e q, r => r.delete e q
  | resetPools q, r => ⟨(), r.resetPools q, #[]⟩
  | modify e k f, r => ⟨r.get? e k, r.modify e k f, #[]⟩
  | modifyMany e q f, r => r.modifyMany e q f

inductive Query.Write (q : List κ) : Type 1 where
  /-- Reads the components of one entity and writes them back changed. -/
  | modify (e : Entity) (f : Row Value q → Row Value q)
  | forEach {τ : Type} (f : τ → Entity → Row Value q → τ × Row Value q) (s : τ)

def Query.Write.run {q : List κ} : Query.Write q → Query κ q → Query κ q
  | modify e f, x =>
    match x.get? e with
    | none => x
    | some row => x.put e (f row)
  | forEach f s, x => (x.forEach f s).2

def Query.after {q : List κ} (x : Query κ q) (ws : List (Query.Write q)) : Query κ q :=
  ws.foldl (fun x w => w.run x) x

variable (κ) in
/-- Whatever changes a registry. -/
inductive Action : Type 1 where
  | command (c : Command κ)
  | deleteOwned (e : Entity) (q : List κ)
  | reserve (n : Nat)
  | reservePool (k : κ) (n : Nat)
  | forEach {τ : Type} (q : List κ) (f : τ → Entity → Row Value q → τ × Row Value q) (s : τ)
  | query (q : List κ) (ws : List (Query.Write q))
  /-- A write into the pool of a kind, without regard to which entities are alive. -/
  | writePool (k : κ) (w : Pool.Write k)

def Command.aboutComponents : Command κ → Bool
  | create | destroy _ | destroyMany _ | destroyWith _ | reset => false
  | _ => true

def Action.aboutComponents : Action κ → Bool
  | command c => c.aboutComponents
  | reserve _ => false
  | _ => true

/-- The registry after an action, whether it was granted or refused. -/
def Action.run : Action κ → Registry κ → Registry κ
  | command c, r => (c.perform r).state
  | deleteOwned e q, r => (r.deleteOwned e q).state
  | reserve n, r =>
    match r.reserve n with
    | .ok r => r
    | .error _ => r
  | reservePool k n, r => (r.reservePool k n).state
  | forEach q f s, r => (r.forEach q f s).state
  | query q ws, r =>
    match r.query q with
    | .ok x => (x.after ws).release r
    | .error _ => r
  | writePool k w, r => r.modifyPool k w.run

namespace Registry

def after (r : Registry κ) (as : List (Action κ)) : Registry κ :=
  as.foldl (fun r a => a.run r) r

theorem after_append (r : Registry κ) (as bs : List (Action κ)) :
    r.after (as ++ bs) = (r.after as).after bs :=
  List.foldl_append

/-- The registries that actions lead to from an empty one. -/
inductive Reachable : Registry κ → Prop where
  | ofSizing {sizing : Sizing} {r : Registry κ} : ofSizing sizing = .ok r → Reachable r
  | act {r : Registry κ} (a : Action κ) : Reachable r → Reachable (a.run r)

theorem reachable_empty (poolCapacity : Nat) :
    ({ sizing := ⟨0, poolCapacity⟩ } : Registry κ).Reachable := by
  have hr : ofSizing ⟨0, poolCapacity⟩ = .ok ({ sizing := ⟨0, poolCapacity⟩ } : Registry κ) := rfl
  exact .ofSizing hr

theorem Reachable.after {r : Registry κ} (h : r.Reachable) (as : List (Action κ)) :
    (r.after as).Reachable := by
  induction as generalizing r with
  | nil => exact h
  | cons a as ih => exact ih (h.act a)

end Registry

end TickWorld
