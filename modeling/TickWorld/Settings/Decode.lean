import TickWorld.Settings.Basic
import TickWorld.Toml.Document

namespace TickWorld

def fieldOr {α : Type} (entries : Toml.Entries) (key : String) (absent : α)
    (read : Toml.Value → Option α) : Option α :=
  match entries.lookup key with
  | none => some absent
  | some value => read value

def natBelow? (bound : Nat) : Toml.Value → Option Nat
  | .integer n => if 0 ≤ n ∧ n < bound then some n.toNat else none
  | _ => none

def bool? : Toml.Value → Option Bool
  | .boolean b => some b
  | _ => none

def uint32? (value : Toml.Value) : Option UInt32 := (natBelow? UInt32.size value).map UInt32.ofNat

def uint64? (value : Toml.Value) : Option UInt64 := (natBelow? UInt64.size value).map UInt64.ofNat

def capacity? (value : Toml.Value) : Option Nat := natBelow? UInt64.size value

namespace Sizing

def ofEntries? (entries : Toml.Entries) : Option Sizing := do
  let entityCapacity ← fieldOr entries "entity_capacity" ({} : Sizing).entityCapacity capacity?
  let poolCapacity ← fieldOr entries "pool_capacity" ({} : Sizing).poolCapacity capacity?
  some { entityCapacity, poolCapacity }

/-- The room that the items of an array write, by their position. Further items are ignored. -/
def ofItems? : List Toml.Value → Option Sizing
  | [] => some {}
  | [entity] => (capacity? entity).map fun entityCapacity => { entityCapacity }
  | entity :: pool :: _ => do
    let entityCapacity ← capacity? entity
    let poolCapacity ← capacity? pool
    some { entityCapacity, poolCapacity }

/-- The room that a value writes. A date or a time is read as a table in which no key is known. -/
def ofValue? : Toml.Value → Option Sizing
  | .table _ entries => ofEntries? entries
  | .array items => ofItems? items
  | .moment _ => some {}
  | _ => none

end Sizing

namespace Settings

def ofEntries? (entries : Toml.Entries) : Option Settings := do
  let defaults : Settings := {}
  let sizing ← fieldOr entries "registry" defaults.sizing Sizing.ofValue?
  let tickRate ← fieldOr entries "tick_rate" defaults.tickRate uint32?
  let maxTicks ← fieldOr entries "max_ticks" defaults.maxTicks uint64?
  let spawnCount ← fieldOr entries "spawn_count" defaults.spawnCount uint32?
  let spawnPerTick ← fieldOr entries "spawn_per_tick" defaults.spawnPerTick uint32?
  let reportInterval ← fieldOr entries "report_interval" defaults.reportInterval uint64?
  let timingLogs ← fieldOr entries "enable_timing_logs" defaults.timingLogs bool?
  some { sizing, tickRate, maxTicks, spawnCount, spawnPerTick, reportInterval, timingLogs }

/-- The settings that a text writes, where `parse` makes the table of the document of it. A key that
is missing has its default, and keys that are not known are ignored. -/
def decode (parse : String → Option Toml.Entries) (text : String) :
    Except SetupFailure Settings :=
  match (parse text).bind ofEntries? with
  | none => .error .parseConfig
  | some settings =>
    match settings.validate with
    | .error cause => .error cause
    | .ok () => .ok settings

def ofToml (text : String) : Except SetupFailure Settings := decode Toml.document? text

/-- The settings in a file, of which the bytes are given or the reason why it could not be read. -/
def load (path : String) (content : Except ReadFailure ByteArray) :
    Except SetupFailure Settings :=
  match content with
  | .error cause => .error (.readConfig path cause)
  | .ok bytes =>
    match String.fromUTF8? bytes with
    | none => .error (.readConfig path .notUtf8)
    | some text => ofToml text

end Settings

end TickWorld
