import TickWorld.Server

open TickWorld
open TickWorld.Drift (Kind Role)

namespace TickWorld.Main

/-- The cause of a failure to read a file. A directory can be opened and fails when it is read; a
path below a file cannot be opened. -/
def readFailure : IO.Error → ReadFailure
  | .noFileOrDirectory .. => .notFound
  | .inappropriateType none .. => .isDirectory
  | .inappropriateType (some _) .. => .notDirectory
  | .invalidArgument (some _) .. => .nameTooLong
  | .permissionDenied .. => .notPermitted
  | e => .other (toString e)

def readContent (path : String) : IO (Except ReadFailure ByteArray) := do
  if path.contains '\x00' then return .error .nulInPath
  try
    return .ok (← IO.FS.readBinFile path)
  catch e =>
    return .error (readFailure e)

partial def watchInput (input : IO.FS.Stream) (flag : IO.Ref Bool) (line : ByteArray) :
    IO Unit := do
  let chunk ← input.read 1
  if chunk.isEmpty ∨ chunk.data = #[0x0A] then
    let search := Console.searchQuit (line ++ chunk).toList
    if search.found then flag.set false
    else if (String.fromUTF8? (line ++ chunk)).isNone then pure ()
    else if chunk.isEmpty then pure ()
    else watchInput input flag .empty
  else watchInput input flag (line ++ chunk)

/-- Runs one tick. As an action it is done with when the next action begins, such as a look at the
clock. -/
@[noinline] def tick (x : Schedule (Kind Empty) (Role Empty)) :
    IO (Schedule (Kind Empty) (Role Empty)) :=
  return x.update.state

partial def loop (flag : IO.Ref Bool) (sim : Simulation) (x : Schedule (Kind Empty) (Role Empty)) :
    IO Simulation := do
  let sim := { sim with running := ← flag.get }
  if sim.continues x.ticks then
    let start ← IO.monoNanosNow
    let x ← tick x
    let elapsed := (← IO.monoNanosNow) - start
    let (sim, _) := sim.account x elapsed
    match sim.pause? elapsed with
    | some nanos => IO.sleep (UInt32.ofNat (nanos / 1000000))
    | none => pure ()
    loop flag sim x
  else return sim

def serve (settings : Settings) (registry : Registry (Kind Empty)) : IO UInt32 := do
  let sim : Simulation := { settings }
  let flag ← IO.mkRef true
  let input ← IO.getStdin
  let _ ← IO.asTask (watchInput input flag .empty) .dedicated
  Server.runningLines.forM (IO.println ·)
  match Drift.seedWorld registry settings.spawnCount with
  | ⟨.error cause, _, _⟩ =>
    IO.eprintln (Server.fatalLine cause.message)
    return UInt32.ofNat Server.failureStatus
  | ⟨.ok _, registry, _⟩ =>
    let sim ← loop flag sim (sim.prepare registry).state
    (Server.summaryLines sim.stats).forM (IO.println ·)
    return 0

end TickWorld.Main

/-- Runs the server with the settings file that the first argument names. An open console is waited
for at the end: the process exits when the line being read is complete or the input ends. -/
def main (args : List String) : IO UInt32 := do
  let path := args.headD Server.defaultPath
  (Server.banner ++ [Server.loadingLine path]).forM (IO.println ·)
  match Settings.load path (← Main.readContent path) with
  | .error cause =>
    IO.eprintln (Server.fatalLine cause.message)
    return UInt32.ofNat Server.failureStatus
  | .ok settings =>
    IO.println (Server.settingsLine settings)
    match (Registry.ofSizing settings.sizing : Except Fault (Registry (Kind Empty))) with
    | .error fault =>
      IO.eprintln fault.message
      return UInt32.ofNat Server.faultStatus
    | .ok registry =>
      IO.println (Server.registryLine registry.capacity)
      Main.serve settings registry
