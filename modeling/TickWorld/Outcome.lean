import TickWorld.Event

namespace TickWorld

/-- An answer, the state after it and the events emitted. -/
structure Outcome (σ α : Type) where
  result : α
  state : σ
  events : Array Event := #[]

namespace Outcome

variable {σ τ α β : Type}

def bind (o : Outcome σ α) (next : α → σ → Outcome σ β) : Outcome σ β :=
  let ⟨result, state, events⟩ := next o.result o.state
  ⟨result, state, o.events ++ events⟩

def map (f : α → β) (o : Outcome σ α) : Outcome σ β := ⟨f o.result, o.state, o.events⟩

/-- Puts the state back into the larger state that it was taken from. -/
def mapState (f : σ → τ) (o : Outcome σ α) : Outcome τ α := ⟨o.result, f o.state, o.events⟩

def after (earlier : Array Event) (o : Outcome σ α) : Outcome σ α :=
  ⟨o.result, o.state, earlier ++ o.events⟩

end Outcome

end TickWorld
