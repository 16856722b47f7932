import TickWorld.Settings.Decode
import TickWorld.Simulation.Basic

namespace TickWorld.Server

open Drift (Kind)

def version : String := "0.1.0"

def defaultPath : String := "config/indie.toml"

def rule : String := "═══════════════════════════════════════════════════════════════════"

def banner : List String :=
  [ rule, "                     INDIE SERVER v" ++ version,
    "                         HEADLESS MODE", rule, "" ]

def loadingLine (path : String) : String := "📄 Loading config from " ++ path ++ " ..."

def settingsLine (s : Settings) : String :=
  "   ✓ tick_rate=" ++ toString s.tickRate.toNat ++ " max_ticks=" ++ toString s.maxTicks.toNat
    ++ " spawn_count=" ++ toString s.spawnCount.toNat

def registryLine (capacity : Nat) : String :=
  "   ✓ Registry ready (" ++ toString capacity ++ " entity slots)"

def runningLines : List String := [ "", "▶️  Running... (type `quit` to stop early)", "" ]

def summaryLines (stats : TickStats) : List String := "" :: stats.summary

def fatalLine (reason : String) : String := "   ✗ FATAL: " ++ reason

def failureStatus : Nat := 1

def faultStatus : Nat := 101

/-- Everything that a server wrote, line by line, and its exit status. -/
structure Transcript where
  status : Nat
  out : List String
  err : List String
deriving DecidableEq

/-- A server without console input: the settings are loaded from a file with the given content, and
the simulation runs to its end. There is no transcript if it never ends. -/
def transcript? (path : String) (content : Except ReadFailure ByteArray) (elapsed : Nat → Nat) :
    Option Transcript :=
  let out := banner ++ [loadingLine path]
  match Settings.load path content with
  | .error cause => some ⟨failureStatus, out, [fatalLine cause.message]⟩
  | .ok settings =>
    let out := out ++ [settingsLine settings]
    match (Registry.ofSizing settings.sizing : Except Fault (Registry (Kind Empty))) with
    | .error fault => some ⟨faultStatus, out, [fault.message]⟩
    | .ok registry =>
      let out := out ++ [registryLine registry.capacity] ++ runningLines
      (Simulation.run? elapsed { settings } registry).map fun outcome =>
        match outcome.result with
        | .error cause => ⟨failureStatus, out, [fatalLine cause.message]⟩
        | .ok () => ⟨0, out ++ summaryLines outcome.state.1.stats, []⟩

end TickWorld.Server
