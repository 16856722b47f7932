import TickWorld.Main
import TickWorld.Proofs.Registry.Numbers
import TickWorld.Proofs.Registry.Refinement
import TickWorld.Proofs.Registry.Ownership
import TickWorld.Proofs.Registry.Selection
import TickWorld.Proofs.Registry.Turnover
import TickWorld.Proofs.Registry.Refusal
import TickWorld.Proofs.Registry.Peak
import TickWorld.Proofs.Storage.Listing
import TickWorld.Proofs.Storage.Guarded
import TickWorld.Proofs.Storage.PairList
import TickWorld.Proofs.Storage.GuardedPool
import TickWorld.Proofs.Schedule.Roster
import TickWorld.Proofs.Schedule.Bookkeeping
import TickWorld.Proofs.Schedule.Suspension
import TickWorld.Proofs.Drift.Spawn
import TickWorld.Proofs.Drift.Aging
import TickWorld.Proofs.Drift.Survival
import TickWorld.Proofs.Drift.Brood
import TickWorld.Proofs.Simulation.Population
import TickWorld.Proofs.Leftmost
import TickWorld.Proofs.Registry.Batch
import TickWorld.Proofs.Registry.Blame
import TickWorld.Proofs.Registry.Iteration
import TickWorld.Proofs.Storage.Twin
import TickWorld.Proofs.Registry.Answer
import TickWorld.Proofs.Registry.Twin
import TickWorld.Proofs.Drift.Decay
import TickWorld.Proofs.Drift.Shortage
import TickWorld.Proofs.Drift.Arrival
import TickWorld.Proofs.Storage.Refusal
import TickWorld.Proofs.Drift.Refill
import TickWorld.Proofs.Simulation.Overrun
import TickWorld.Proofs.Drift.Reporting
import TickWorld.Proofs.Registry.Capacity
import TickWorld.Proofs.Simulation.Statistics
import TickWorld.Proofs.Console.QuitLine
import TickWorld.Proofs.Storage.Layout
import TickWorld.Proofs.Storage.Lending
import TickWorld.Proofs.Registry.Founding
import TickWorld.Proofs.Toml.Keys
import TickWorld.Proofs.Settings.Overlay
