import TickWorld.Registry.Component

namespace TickWorld

/-- A family of system kinds: what the state of such a system is and how messages name it. -/
class SystemKind (σ : Type) where
  State : σ → Type
  /-- The name of the kind, for messages about a system that is absent. -/
  kindName : σ → String
  /-- The name of a system, for messages about it. -/
  systemName : (s : σ) → State s → String

/-- What the systems of a family do to a registry with components of family `κ`. -/
class SystemBehavior (κ σ : Type) [ComponentKind κ] [SystemKind σ] where
  /-- Runs once, when the system is added. -/
  attach : (s : σ) → SystemKind.State s → Registry κ → Outcome (Registry κ) (SystemKind.State s)
  /-- Advances the system by one tick. -/
  update : (s : σ) → SystemKind.State s → Registry κ → Outcome (Registry κ) (SystemKind.State s)

structure Installed (σ : Type) [SystemKind σ] where
  kind : σ
  state : SystemKind.State kind
  /-- Ticks skip a system that is not active. -/
  active : Bool

namespace Installed

variable {σ : Type} [SystemKind σ]

def name (x : Installed σ) : String := SystemKind.systemName x.kind x.state

def cast? [DecidableEq σ] (x : Installed σ) (s : σ) : Option (SystemKind.State s) :=
  if h : x.kind = s then some (h ▸ x.state) else none

def tick {κ : Type} [ComponentKind κ] [SystemBehavior κ σ] (x : Installed σ) (r : Registry κ) :
    Outcome (Registry κ) (Installed σ) :=
  let ⟨kind, state, active⟩ := x
  if active then (SystemBehavior.update kind state r).map (⟨kind, ·, active⟩)
  else ⟨⟨kind, state, active⟩, r, #[]⟩

end Installed

/-- Systems in their slots, and the registry that they are bound to. A kind has a slot of its own
from its first addition on, also while it is removed, and the slots give the order of updates. -/
structure Schedule (κ σ : Type) [ComponentKind κ] [SystemKind σ] where
  registry : Registry κ
  slots : List (Option (Installed σ)) := []
  /-- The slot number of each kind that was ever added. -/
  index : List (σ × Nat) := []
  /-- The number of completed ticks. It has no limit; a count of 64 bits agrees with it for fewer
  than `2 ^ 64` ticks. -/
  ticks : Nat := 0

namespace Schedule

variable {κ σ : Type} [ComponentKind κ] [DecidableEq σ] [SystemKind σ]

def ofRegistry (registry : Registry κ) : Schedule κ σ := { registry }

def position? (x : Schedule κ σ) (s : σ) : Option Nat := x.index.lookup s

def installed? (x : Schedule κ σ) (s : σ) : Option (Installed σ) :=
  match x.position? s with
  | none => none
  | some position => x.slots[position]?.join

def get? (x : Schedule κ σ) (s : σ) : Option (SystemKind.State s) :=
  (x.installed? s).bind (·.cast? s)

def has (x : Schedule κ σ) (s : σ) : Bool := (x.installed? s).isSome

def isActive (x : Schedule κ σ) (s : σ) : Bool := (x.installed? s).any (·.active)

def systems (x : Schedule κ σ) : List (Installed σ) := x.slots.reduceOption

def size (x : Schedule κ σ) : Nat := x.systems.length

def isEmpty (x : Schedule κ σ) : Bool := x.size = 0

def systemNames (x : Schedule κ σ) : List String := x.systems.map (·.name)

/-- Puts a system into the slot of its kind, which is appended on first use. The answer is the
slot number. -/
def place (x : Schedule κ σ) (system : Installed σ) : Outcome (Schedule κ σ) Nat :=
  match x.position? system.kind with
  | some position =>
    let replaced := if x.has system.kind then #[.systemReplaced system.name position] else #[]
    ⟨position, { x with slots := x.slots.set position (some system) }, replaced⟩
  | none =>
    let position := x.slots.length
    ⟨position, { x with
      slots := x.slots ++ [some system]
      index := (system.kind, position) :: x.index }, #[]⟩

/-- Adds a system, active. It is attached to the registry first; a system of its kind that is
already registered is dropped and replaced. -/
def add [SystemBehavior κ σ] (x : Schedule κ σ) (s : σ) (state : SystemKind.State s) :
    Outcome (Schedule κ σ) Unit :=
  let ⟨registry, slots, index, ticks⟩ := x
  let attached := SystemBehavior.attach s state registry
  let system : Installed σ := ⟨s, attached.result, true⟩
  let placed := place ⟨attached.state, slots, index, ticks⟩ system
  ⟨(), placed.state,
    attached.events ++ placed.events ++ #[.systemRegistered system.name placed.result]⟩

def remove (x : Schedule κ σ) (s : σ) : Outcome (Schedule κ σ) (Option (SystemKind.State s)) :=
  match x.position? s, x.installed? s with
  | some position, some system =>
    ⟨system.cast? s, { x with slots := x.slots.set position none },
      #[.systemRemoved system.name position]⟩
  | _, _ => ⟨none, x, #[]⟩

def setActive (x : Schedule κ σ) (s : σ) (active : Bool) :
    Outcome (Schedule κ σ) (Except Failure Unit) :=
  match x.position? s, x.installed? s with
  | some position, some system =>
    ⟨.ok (), { x with slots := x.slots.set position (some { system with active }) },
      #[.systemToggled system.name active]⟩
  | _, _ => ⟨.error (.systemNotRegistered (SystemKind.kindName s)), x, #[]⟩

def activate (x : Schedule κ σ) (s : σ) : Outcome (Schedule κ σ) (Except Failure Unit) :=
  x.setActive s true

def deactivate (x : Schedule κ σ) (s : σ) : Outcome (Schedule κ σ) (Except Failure Unit) :=
  x.setActive s false

def modify (x : Schedule κ σ) (s : σ) (f : SystemKind.State s → SystemKind.State s) :
    Schedule κ σ :=
  match x.position? s, x.installed? s with
  | some position, some system =>
    match system.cast? s with
    | some state =>
      { x with slots := x.slots.set position (some ⟨s, f state, system.active⟩) }
    | none => x
  | _, _ => x

def runSlots [SystemBehavior κ σ] (r : Registry κ) :
    List (Option (Installed σ)) → Outcome (Registry κ) (List (Option (Installed σ)))
  | [] => ⟨[], r, #[]⟩
  | none :: slots => (runSlots r slots).map (none :: ·)
  | some system :: slots =>
    (system.tick r).bind fun system r => (runSlots r slots).map (some system :: ·)

/-- Runs one tick: every active system, in the order of the slots. -/
def update [SystemBehavior κ σ] (x : Schedule κ σ) : Outcome (Schedule κ σ) Unit :=
  let ⟨registry, slots, index, ticks⟩ := x
  let ran := runSlots registry slots
  ⟨(), ⟨ran.state, ran.result, index, ticks + 1⟩, ran.events⟩

end Schedule

end TickWorld
