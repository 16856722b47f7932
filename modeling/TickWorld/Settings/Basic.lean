import TickWorld.Registry.Basic

namespace TickWorld

inductive ReadFailure where
  | notFound
  | notPermitted
  | notDirectory
  | isDirectory
  | nameTooLong
  /-- The path holds a character that no path may hold. -/
  | nulInPath
  | notUtf8
  | other (text : String)
deriving DecidableEq

def ReadFailure.message : ReadFailure → String
  | notFound => "No such file or directory (os error 2)"
  | notPermitted => "Permission denied (os error 13)"
  | notDirectory => "Not a directory (os error 20)"
  | isDirectory => "Is a directory (os error 21)"
  | nameTooLong => "File name too long (os error 36)"
  | nulInPath => "file name contained an unexpected NUL byte"
  | notUtf8 => "stream did not contain valid UTF-8"
  | other text => text

inductive SetupFailure where
  | readConfig (path : String) (cause : ReadFailure)
  /-- The text is no TOML document, or not one that writes settings. -/
  | parseConfig
  | invalidConfig (reason : String)
  | refused (cause : Failure)
deriving DecidableEq

def SetupFailure.message : SetupFailure → String
  | readConfig path cause => "failed to read config " ++ path ++ ": " ++ cause.message
  | parseConfig => "failed to parse config: not a document of settings"
  | invalidConfig reason => "invalid configuration: " ++ reason
  | refused cause => cause.message

/-- What a simulation is told before it runs. -/
structure Settings where
  sizing : Sizing := {}
  /-- Ticks per second; zero for no pacing. -/
  tickRate : UInt32 := 60
  /-- The number of ticks to run; zero for no limit. -/
  maxTicks : UInt64 := 0
  /-- The entities that the world is populated with. -/
  spawnCount : UInt32 := 256
  /-- The entities that are added in each tick. -/
  spawnPerTick : UInt32 := 1
  /-- The ticks between two reports; zero for no reports. -/
  reportInterval : UInt64 := 60
  /-- Whether ticks that overrun their budget are logged. -/
  timingLogs : Bool := false
deriving DecidableEq

namespace Settings

def maxTickRate : UInt32 := 1000

def validate (s : Settings) : Except SetupFailure Unit :=
  if maxTickRate < s.tickRate then
    .error (.invalidConfig
      ("tick_rate " ++ toString s.tickRate.toNat ++ " exceeds " ++ toString maxTickRate.toNat))
  else .ok ()

end Settings

end TickWorld
