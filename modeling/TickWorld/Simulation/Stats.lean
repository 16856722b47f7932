import TickWorld.Decimal.Fixed

namespace TickWorld

def microsLimit : Nat := 0xFFFFFFFFFFFFFFFF

structure TickSample where
  tick : Nat
  /-- The time spent in the update. -/
  updateMicros : Nat
  /-- The entities that lived after the tick. -/
  live : Nat

/-- What is known after some ticks. The two counts have no limit here; counts of 64 bits agree with
them for fewer than `2 ^ 64` ticks. -/
structure TickStats where
  ticks : Nat := 0
  /-- The sum of the update times, held at the greatest number. -/
  sumMicros : Nat := 0
  minMicros : Nat := microsLimit
  maxMicros : Nat := 0
  overBudget : Nat := 0
  /-- The entities that lived after the last tick. -/
  lastLive : Nat := 0

namespace TickStats

/-- Takes one tick into account. Its budget, if it has one, is given in nanoseconds and counts in
whole microseconds. -/
def record (s : TickStats) (sample : TickSample) (budget : Option Nat) : TickStats where
  ticks := s.ticks + 1
  sumMicros := min (s.sumMicros + sample.updateMicros) microsLimit
  minMicros := min s.minMicros sample.updateMicros
  maxMicros := max s.maxMicros sample.updateMicros
  overBudget :=
    if budget.any (· / 1000 < sample.updateMicros) then s.overBudget + 1 else s.overBudget
  lastLive := sample.live

def millis (micros : Float) : Float := micros / 1000

def meanMillis (s : TickStats) : Float :=
  if s.ticks = 0 then 0.0
  else millis (s.sumMicros.toUInt64.toFloat / s.ticks.toUInt64.toFloat)

def millisText (x : Float) : String := Decimal.fixed 3 x ++ " ms"

def summary (s : TickStats) : List String :=
  [ "╔══════════════════════════════════════════════════════════════════╗",
    "║                     TICK STATISTICS SUMMARY                      ║",
    "╚══════════════════════════════════════════════════════════════════╝",
    "",
    "  Ticks Recorded:     " ++ toString s.ticks,
    "  Average Update:     " ++ millisText s.meanMillis ]
  ++ (if s.ticks = 0 then []
      else
        [ "  Min Update:         " ++ millisText (millis s.minMicros.toUInt64.toFloat),
          "  Max Update:         " ++ millisText (millis s.maxMicros.toUInt64.toFloat) ])
  ++ [ "  Over Budget:        " ++ toString s.overBudget ++ " ticks",
       "  Live Entities:      " ++ toString s.lastLive ]

end TickStats

end TickWorld
