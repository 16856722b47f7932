import Mathlib.Data.Finset.Card
import Mathlib.Data.Finset.Filter
import Mathlib.Data.Finset.SDiff
import Mathlib.Logic.Function.Basic
import TickWorld.Proofs.Registry.Walk

namespace TickWorld

open ComponentKind (name valueLimit)

/-- Live entities, kinds that have a pool, and the values of entities. -/
@[ext] structure World (κ : Type) [ComponentKind κ] where
  live : Finset Entity
  registered : κ → Bool
  value : (k : κ) → Entity → Option (Value k)

namespace World

variable {κ : Type} [DecidableEq κ] [ComponentKind κ]

def empty : World κ := ⟨∅, fun _ => false, fun _ _ => none⟩

def owns (w : World κ) (e : Entity) (k : κ) : Bool := (w.value k e).isSome

def set (w : World κ) (k : κ) (e : Entity) (x : Option (Value k)) : World κ :=
  { w with value := Function.update w.value k (Function.update (w.value k) e x) }

def register (w : World κ) (k : κ) : World κ :=
  { w with registered := Function.update w.registered k true }

def bear (w : World κ) (e : Entity) : World κ :=
  { w with
    live := insert e w.live
    value := fun k e' => if e' = e then none else w.value k e' }

def remove (w : World κ) (es : Finset Entity) : World κ :=
  { w with
    live := w.live \ es
    value := fun k e => if e ∈ es then none else w.value k e }

/-- The live entities that have a value of each kind. A list that names a kind twice has none. -/
def owners (w : World κ) (q : List κ) : Finset Entity :=
  w.live.filter fun e => q.Nodup ∧ ∀ k ∈ q, w.owns e k = true

def destroy (w : World κ) (e : Entity) : Except Failure Unit × World κ :=
  if e ∈ w.live then (.ok (), w.remove {e}) else (.error (.deadEntity e), w)

/-- Destroys entities in order, up to the first that is not alive, and counts them on from `n`. -/
def destroyMany (w : World κ) (n : Nat) : List Entity → Except Failure Nat × World κ
  | [] => (.ok n, w)
  | e :: es =>
    if e ∈ w.live then (w.remove {e}).destroyMany (n + 1) es else (.error (.deadEntity e), w)

def assign (w : World κ) (e : Entity) (k : κ) (value : Value k) :
    Except Failure Unit × World κ :=
  if e ∉ w.live then (.error (.deadEntity e), w)
  else if w.owns e k then (.error (.alreadyAssigned e (name k)), w)
  else (.ok (), (w.register k).set k e (some value))

def assignOrReplace (w : World κ) (e : Entity) (k : κ) (value : Value k) :
    Except Failure Unit × World κ :=
  if e ∉ w.live then (.error (.deadEntity e), w)
  else (.ok (), (w.register k).set k e (some value))

def replace (w : World κ) (e : Entity) (k : κ) (value : Value k) :
    Except Failure (Value k) × World κ :=
  if e ∉ w.live then (.error (.deadEntity e), w)
  else if w.registered k = false then (.error (.unregisteredComponent (name k)), w)
  else
    match w.value k e with
    | none => (.error (.missingComponent e (name k)), w)
    | some old => (.ok old, w.set k e (some value))

/-- Takes the values of all kinds of a list away, or none of them. -/
def delete (w : World κ) (e : Entity) (q : List κ) : Except Failure Unit × World κ :=
  if e ∉ w.live then (.error (.deadEntity e), w)
  else
    match firstRepeat? [] q, q.find? (!w.owns e ·) with
    | some k, _ => (.error (.duplicateComponent (name k)), w)
    | none, some k => (.error (.missingComponent e (name k)), w)
    | none, none =>
      (.ok (), { w with value := fun k e' => if e' = e ∧ k ∈ q then none else w.value k e' })

def resetPools (w : World κ) (q : List κ) : World κ :=
  { w with value := fun k e => if k ∈ q then none else w.value k e }

def modify (w : World κ) (e : Entity) (k : κ) (f : Value k → Value k) :
    Option (Value k) × World κ :=
  (w.value k e, w.set k e ((w.value k e).map f))

/-- What is wrong with the first kind of a list that has no pool or occurs before. -/
def fault? (w : World κ) (seen : List κ) : List κ → Option Failure
  | [] => none
  | k :: q =>
    if w.registered k = false then some (.unregisteredComponent (name k))
    else if k ∈ seen then some (.duplicateComponent (name k))
    else w.fault? (k :: seen) q

/-- The values of an entity for a list of kinds, or the first kind of which it has none. -/
def row (w : World κ) (e : Entity) : (q : List κ) → Except κ (Row Value q)
  | [] => .ok .nil
  | k :: q =>
    match w.value k e, w.row e q with
    | none, _ => .error k
    | some _, .error k => .error k
    | some value, .ok rest => .ok (.cons value rest)

def setRow (w : World κ) (e : Entity) : {q : List κ} → Row Value q → World κ
  | [], .nil => w
  | k :: _, .cons value rest => (w.set k e (some value)).setRow e rest

def modifyMany (w : World κ) (e : Entity) (q : List κ) (f : Row Value q → Row Value q) :
    Except Failure (Row Value q) × World κ :=
  if e ∉ w.live then (.error (.deadEntity e), w)
  else
    match w.fault? [] q, w.row e q with
    | some cause, _ => (.error cause, w)
    | none, .error k => (.error (.missingComponent e (name k)), w)
    | none, .ok row => (.ok row, w.setRow e (f row))

/-- What a command may answer and what may become of the world then. Creation may choose the
entity, all else is determined. -/
def Prescribes (w : World κ) : (c : Command κ) → c.Answer → World κ → Prop
  | .create, answer, w' => ∃ e, e ∉ w.live ∧ e ≠ .null ∧ answer = .ok e ∧ w' = w.bear e
  | .destroy e, answer, w' => (answer, w') = w.destroy e
  | .destroyMany es, answer, w' => (answer, w') = w.destroyMany 0 es
  | .destroyWith q, answer, w' => answer = (w.owners q).card ∧ w' = w.remove (w.owners q)
  | .reset, _, w' => w' = w.remove w.live
  | .assign e k value, answer, w' => (answer, w') = w.assign e k value
  | .replace e k value, answer, w' => (answer, w') = w.replace e k value
  | .assignOrReplace e k value, answer, w' => (answer, w') = w.assignOrReplace e k value
  | .delete e q, answer, w' => (answer, w') = w.delete e q
  | .resetPools q, _, w' => w' = w.resetPools q
  | .modify e k f, answer, w' => (answer, w') = w.modify e k f
  | .modifyMany e q f, answer, w' => (answer, w') = w.modifyMany e q f

/-- Commands with these answers may lead, one after the other, from one world to another. -/
inductive Runs : World κ → List (Σ c : Command κ, c.Answer) → World κ → Prop where
  | done (w : World κ) : w.Runs [] w
  | step {w w' w'' : World κ} {c : Command κ} {answer : c.Answer}
      {rest : List (Σ c : Command κ, c.Answer)} :
      w.Prescribes c answer w' → w'.Runs rest w'' → w.Runs (⟨c, answer⟩ :: rest) w''

variable {w : World κ} {k k' : κ} {e e' : Entity}

@[simp] theorem value_set_self (x : Option (Value k)) : (w.set k e x).value k e = x := by
  simp [set]

theorem value_set_of_ne (x : Option (Value k)) (hne : ¬(k' = k ∧ e' = e)) :
    (w.set k e x).value k' e' = w.value k' e' := by
  by_cases hk : k' = k
  · subst k'
    have he : e' ≠ e := fun he => hne ⟨rfl, he⟩
    simp [set, he]
  · simp [set, hk]

@[simp] theorem set_value (w : World κ) (k : κ) (e : Entity) : w.set k e (w.value k e) = w := by
  simp [set]

end World

namespace Registry

variable {κ : Type} [DecidableEq κ] [ComponentKind κ]

/-- The world that a registry stores. -/
def world (r : Registry κ) : World κ where
  live := r.entities.toFinset
  registered := r.hasPool
  value k e := r.get? e k

/-- There is memory for one more value of a kind: the kind has a pool, or one of the capacity that
new pools have can be allocated, and the array of the values may be longer by one. -/
structure Provides (r : Registry κ) (k : κ) : Prop where
  pool : r.hasPool k = true ∨
    r.sizing.poolCapacity < slotLimit ∧ r.sizing.poolCapacity < valueLimit k
  value : (r.pool? k).elim 0 Pool.size + 1 < valueLimit k

/-- There are numbers and memory for what a command adds: a number that does not live yet for a new
entity, and memory for the value of a live entity that has none of its kind. -/
def HasRoomFor (r : Registry κ) : Command κ → Prop
  | .create => r.size < Entity.null.index
  | .assign e k _ => r.isLive e = true → r.get? e k = none → r.Provides k
  | .assignOrReplace e k _ => r.isLive e = true → r.get? e k = none → r.Provides k
  | _ => True

/-- There are numbers and memory for what each of some commands adds when its turn comes. -/
def HasRoomForAll (r : Registry κ) : List (Command κ) → Prop
  | [] => True
  | c :: cs => r.HasRoomFor c ∧ (c.perform r).state.HasRoomForAll cs

def transcript (r : Registry κ) : List (Command κ) → List (Σ c : Command κ, c.Answer)
  | [] => []
  | c :: cs => ⟨c, (c.perform r).result⟩ :: (c.perform r).state.transcript cs

end Registry

end TickWorld
