import TickWorld.Failure

namespace TickWorld

inductive Level where
  | trace | debug | info | warn
deriving DecidableEq

def Level.name : Level → String
  | trace => "TRACE"
  | debug => "DEBUG"
  | info => "INFO"
  | warn => "WARN"

/-- The events that operations emit. -/
inductive Event where
  /-- The live set has no slot yet for an entity about to live. -/
  | growingEntities (entity : Entity) (capacity : Nat)
  /-- Pools held values for a number that was not alive. -/
  | droppedComponents (entity : Entity) (stale : Nat)
  | batchDestroyed (components : List String) (destroyed : Nat)
  | registryReset (destroyed : Nat)
  | matchedNothing (cause : Failure)
  | poolAllocated (component : String) (slot capacity : Nat)
  | systemReplaced (system : String) (position : Nat)
  | systemRegistered (system : String) (position : Nat)
  | systemRemoved (system : String) (position : Nat)
  | systemToggled (system : String) (active : Bool)
  | worldSeeded (count live : Nat)
  | consoleAttached (live interval : Nat)
  /-- The mean place, which is logged with a report, is left out: events are compared, and floats
  have no decidable equality. -/
  | worldReported (tick live : Nat) (pools : List (String × Nat))
  | spawnFailed (cause : Failure)
  | decayFailed (cause : Failure)
  | loopStarted (systems tickRate maxTicks : Nat)
  | loopStopped (ticks live : Nat)
  | budgetExceeded (tick updateMicros budgetMicros : Nat)
deriving DecidableEq

namespace Event

def level : Event → Level
  | growingEntities .. | matchedNothing .. | systemToggled .. => .trace
  | droppedComponents .. | batchDestroyed .. | registryReset .. | poolAllocated ..
  | systemRegistered .. | systemRemoved .. => .debug
  | worldSeeded .. | consoleAttached .. | worldReported .. | loopStarted ..
  | loopStopped .. => .info
  | systemReplaced .. | spawnFailed .. | decayFailed .. | budgetExceeded .. => .warn

def message : Event → String
  | growingEntities .. => "growing entity set"
  | droppedComponents .. => "dropped components of a dead entity"
  | batchDestroyed .. => "batch destroy"
  | registryReset .. => "registry reset"
  | matchedNothing .. => "for_each matched nothing"
  | poolAllocated .. => "allocated component pool"
  | systemReplaced .. => "replacing registered system"
  | systemRegistered .. => "system registered"
  | systemRemoved .. => "system removed"
  | systemToggled .. => "system toggled"
  | worldSeeded .. => "world seeded"
  | consoleAttached .. => "console attached"
  | worldReported .. => "world report"
  | spawnFailed .. => "spawn failed"
  | decayFailed .. => "decay destroy failed"
  | loopStarted .. => "game loop started"
  | loopStopped .. => "game loop stopped"
  | budgetExceeded .. => "tick exceeded budget"

end Event

def bracketed (items : List String) : String := "[" ++ ", ".intercalate items ++ "]"

def quoted (name : String) : String := "\"" ++ name ++ "\""

def countText (entry : String × Nat) : String :=
  "(" ++ quoted entry.1 ++ ", " ++ toString entry.2 ++ ")"

def Failure.fields (cause : Failure) : List (String × String) := [("err", cause.message)]

def Event.fields : Event → List (String × String)
  | growingEntities entity capacity =>
    [("entity", toString entity.index), ("capacity", toString capacity)]
  | droppedComponents entity stale =>
    [("entity", toString entity.index), ("stale", toString stale)]
  | batchDestroyed components destroyed =>
    [("components", bracketed (components.map quoted)), ("destroyed", toString destroyed)]
  | registryReset destroyed => [("destroyed", toString destroyed)]
  | matchedNothing cause => cause.fields
  | poolAllocated component slot capacity =>
    [("component", component), ("slot", toString slot), ("capacity", toString capacity)]
  | systemReplaced system position => [("system", system), ("position", toString position)]
  | systemRegistered system position => [("system", system), ("position", toString position)]
  | systemRemoved system position => [("system", system), ("position", toString position)]
  | systemToggled system active => [("system", system), ("active", toString active)]
  | worldSeeded count live => [("count", toString count), ("live", toString live)]
  | consoleAttached live interval => [("live", toString live), ("interval", toString interval)]
  | worldReported tick live pools =>
    [("tick", toString tick), ("live", toString live),
      ("pools", bracketed (pools.map countText))]
  | spawnFailed cause => cause.fields
  | decayFailed cause => cause.fields
  | loopStarted systems tickRate maxTicks =>
    [("systems", toString systems), ("tick_rate", toString tickRate),
      ("max_ticks", toString maxTicks)]
  | loopStopped ticks live => [("ticks", toString ticks), ("live", toString live)]
  | budgetExceeded tick updateMicros budgetMicros =>
    [("tick", toString tick), ("update_us", toString updateMicros),
      ("budget_us", toString budgetMicros)]

end TickWorld
