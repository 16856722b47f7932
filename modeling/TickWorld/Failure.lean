import TickWorld.Entity

namespace TickWorld

/-- The causes for which a storage, a registry or a schedule refuses an operation; the caller may go
on. -/
inductive Failure where
  | allocationFailed (component : String) (requested : Nat)
  | deadEntity (entity : Entity)
  | alreadyAssigned (entity : Entity) (component : String)
  | missingComponent (entity : Entity) (component : String)
  | unregisteredComponent (component : String)
  | duplicateComponent (component : String)
  | systemNotRegistered (system : String)
  /-- Every number below the null handle names a live entity. -/
  | entitiesExhausted
deriving DecidableEq

def Failure.message : Failure → String
  | allocationFailed component requested =>
    "failed to allocate storage for " ++ component ++ ": " ++ toString requested
      ++ " slots requested"
  | deadEntity entity => entity.display ++ " is not alive"
  | alreadyAssigned entity component => entity.display ++ " already owns a " ++ component
  | missingComponent entity component => entity.display ++ " does not own a " ++ component
  | unregisteredComponent component =>
    "component " ++ component ++ " has never been assigned in this registry"
  | duplicateComponent component =>
    "component " ++ component ++ " appears more than once in the same set"
  | systemNotRegistered system => "system " ++ system ++ " is not registered"
  | entitiesExhausted =>
    "entity space exhausted: " ++ toString Entity.null.index ++ " entities issued"

/-- The broken preconditions that end an operation. -/
inductive Fault where
  /-- Storage was demanded, not requested, for more slots than an array can have. -/
  | capacityOverflow
  /-- A component was read by index from an entity that owns none. -/
  | notOwned (entity : Entity) (component : String)
deriving DecidableEq

def Fault.message : Fault → String
  | capacityOverflow => "capacity overflow"
  | notOwned entity component => entity.display ++ " does not own a " ++ component

end TickWorld
