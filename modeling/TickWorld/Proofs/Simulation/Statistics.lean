import Mathlib.Algebra.Order.BigOperators.Group.List
import Mathlib.Algebra.Order.Ring.Nat
import Mathlib.Data.List.Induction
import Mathlib.Order.Bounds.Basic
import TickWorld.Simulation.Stats

namespace TickWorld

/-- A tick as it is taken into account: its measurements, and its budget if it has one. -/
abbrev TickRecord := TickSample × Option Nat

namespace TickRecord

def micros (x : TickRecord) : Nat := x.1.updateMicros

/-- The tick has a budget, and its update took more than the whole microseconds of it. -/
def Overran (x : TickRecord) : Prop := ∃ budget ∈ x.2, budget / 1000 < x.micros

instance : DecidablePred Overran := fun x =>
  inferInstanceAs (Decidable (∃ budget ∈ x.2, budget / 1000 < x.micros))

end TickRecord

open TickRecord (micros Overran)

namespace TickStats

def recordAll (xs : List TickRecord) : TickStats := xs.foldl (fun s x => s.record x.1 x.2) {}

/-- The statistics tell the number of the ticks, what their updates took together, at least and at
most, how many of them overran and how many entities lived after the last. -/
structure Describes (s : TickStats) (xs : List TickRecord) : Prop where
  ticks : s.ticks = xs.length
  sum : s.sumMicros = min (xs.map micros).sum microsLimit
  least : IsLeast {m | m = microsLimit ∨ m ∈ xs.map micros} s.minMicros
  greatest : IsGreatest {m | m = 0 ∨ m ∈ xs.map micros} s.maxMicros
  overBudget : s.overBudget = xs.countP (Overran ·)
  lastLive : s.lastLive = (xs.getLast?.map (·.1.live)).getD 0

variable {s s' : TickStats} {xs ys : List TickRecord}

theorem describes_nil : Describes {} [] where
  ticks := rfl
  sum := rfl
  least := by simp [isLeast_singleton]
  greatest := by simp [isGreatest_singleton]
  overBudget := rfl
  lastLive := rfl

theorem overBudget_record (s : TickStats) (x : TickRecord) :
    (s.record x.1 x.2).overBudget = s.overBudget + if Overran x then 1 else 0 := by
  have hany : x.2.any (· / 1000 < x.1.updateMicros) = decide (Overran x) := by
    rw [Bool.eq_iff_iff, decide_eq_true_iff]
    simp [Overran, micros, Option.any_eq_true]
  simp only [record, hany, decide_eq_true_eq]
  split <;> rfl

theorem Describes.record (h : s.Describes xs) (x : TickRecord) :
    (s.record x.1 x.2).Describes (xs ++ [x]) := by
  have hmem (b : Nat) : {m | m = b ∨ m ∈ (xs ++ [x]).map micros} =
      insert x.micros {m | m = b ∨ m ∈ xs.map micros} := by
    ext m
    simp only [List.map_append, List.mem_append, List.map_cons, List.map_nil, List.mem_singleton,
      Set.mem_ofPred_eq, Set.mem_insert_iff]
    tauto
  constructor
  case ticks => rw [List.length_append, ← h.ticks]; rfl
  case sum =>
    -- What was cut off before is beyond the limit still.
    have hsum : ((xs ++ [x]).map micros).sum = (xs.map micros).sum + x.1.updateMicros := by
      simp [micros]
    simp only [TickStats.record, hsum, h.sum]
    omega
  case least =>
    have hmin : (s.record x.1 x.2).minMicros = min x.micros s.minMicros := Nat.min_comm ..
    rw [hmem, hmin]
    exact h.least.insert x.micros
  case greatest =>
    have hmax : (s.record x.1 x.2).maxMicros = max x.micros s.maxMicros := Nat.max_comm ..
    rw [hmem, hmax]
    exact h.greatest.insert x.micros
  case overBudget =>
    rw [overBudget_record, h.overBudget, List.countP_append, List.countP_singleton]
    simp
  case lastLive => rw [List.getLast?_concat]; rfl

theorem recordAll_describes (xs : List TickRecord) : (recordAll xs).Describes xs := by
  induction xs using List.reverseRecOn with
  | nil => exact describes_nil
  | append_singleton xs x ih =>
    rw [recordAll, List.foldl_append]
    exact ih.record x

theorem Describes.unique (h : s.Describes xs) (h' : s'.Describes xs) : s = s' := by
  cases s
  cases s'
  rw [TickStats.mk.injEq]
  exact ⟨h.ticks.trans h'.ticks.symm, h.sum.trans h'.sum.symm, h.least.unique h'.least,
    h.greatest.unique h'.greatest, h.overBudget.trans h'.overBudget.symm,
    h.lastLive.trans h'.lastLive.symm⟩

/-- In another order, another tick may be the last; nothing else changes. -/
theorem Describes.perm (h : s.Describes xs) (hp : ys.Perm xs) :
    Describes { s with lastLive := (ys.getLast?.map (·.1.live)).getD 0 } ys where
  ticks := h.ticks.trans hp.length_eq.symm
  sum := by rw [(hp.map micros).sum_eq]; exact h.sum
  least := by simpa only [(hp.map micros).mem_iff] using h.least
  greatest := by simpa only [(hp.map micros).mem_iff] using h.greatest
  overBudget := h.overBudget.trans (hp.countP_eq _).symm
  lastLive := rfl

theorem Describes.isLeast (h : s.Describes xs) (hx : ∀ x ∈ xs, x.micros ≤ microsLimit)
    (hne : xs ≠ []) : IsLeast {m | m ∈ xs.map micros} s.minMicros := by
  have hlower : ∀ m ∈ xs.map micros, s.minMicros ≤ m := fun m hm => h.least.2 (.inr hm)
  refine ⟨?_, hlower⟩
  rcases h.least.1 with hlimit | hm
  · obtain ⟨x, hmem⟩ := List.exists_mem_of_ne_nil xs hne
    have hle := hlower x.micros (List.mem_map_of_mem hmem)
    have heq : s.minMicros = x.micros := Nat.le_antisymm hle (hlimit ▸ hx x hmem)
    rw [heq]
    exact List.mem_map_of_mem hmem
  · exact hm

theorem Describes.isGreatest (h : s.Describes xs) (hne : xs ≠ []) :
    IsGreatest {m | m ∈ xs.map micros} s.maxMicros := by
  have hupper : ∀ m ∈ xs.map micros, m ≤ s.maxMicros := fun m hm => h.greatest.2 (.inr hm)
  refine ⟨?_, hupper⟩
  rcases h.greatest.1 with hzero | hm
  · obtain ⟨x, hmem⟩ := List.exists_mem_of_ne_nil xs hne
    have hle := hupper x.micros (List.mem_map_of_mem hmem)
    have heq : s.maxMicros = x.micros := by omega
    rw [heq]
    exact List.mem_map_of_mem hmem
  · exact hm

theorem Describes.mean_between (h : s.Describes xs) (hsum : (xs.map micros).sum ≤ microsLimit) :
    s.minMicros * s.ticks ≤ s.sumMicros ∧ s.sumMicros ≤ s.maxMicros * s.ticks := by
  have hlower := (xs.map micros).card_nsmul_le_sum s.minMicros fun m hm => h.least.2 (.inr hm)
  have hupper := (xs.map micros).sum_le_card_nsmul s.maxMicros fun m hm => h.greatest.2 (.inr hm)
  rw [List.length_map, Nat.nsmul_eq_mul, ← h.ticks, Nat.mul_comm] at hlower hupper
  rw [h.sum, Nat.min_eq_left hsum]
  exact ⟨hlower, hupper⟩

/-- The statistics of any sequence of ticks, each measured within the limit, are its length, the
true sum held at the limit, the least and the greatest update, the count of overruns and the last
population. Only the last of these depends on the order, and the mean is between the least and the
greatest unless the sum was held. -/
theorem statistics_aggregate {xs : List TickRecord} (hx : ∀ x ∈ xs, x.micros ≤ microsLimit) :
    (recordAll xs).ticks = xs.length ∧
    (recordAll xs).sumMicros = min (xs.map micros).sum microsLimit ∧
    (if xs = [] then (recordAll xs).minMicros = microsLimit ∧ (recordAll xs).maxMicros = 0
      else IsLeast {m | m ∈ xs.map micros} (recordAll xs).minMicros ∧
        IsGreatest {m | m ∈ xs.map micros} (recordAll xs).maxMicros) ∧
    (recordAll xs).overBudget = xs.countP (Overran ·) ∧
    (recordAll xs).lastLive = (xs.getLast?.map (·.1.live)).getD 0 ∧
    (∀ ys, ys.Perm xs →
      recordAll ys = { recordAll xs with lastLive := (ys.getLast?.map (·.1.live)).getD 0 }) ∧
    (xs ≠ [] → (xs.map micros).sum ≤ microsLimit →
      (recordAll xs).minMicros * (recordAll xs).ticks ≤ (recordAll xs).sumMicros ∧
        (recordAll xs).sumMicros ≤ (recordAll xs).maxMicros * (recordAll xs).ticks) := by
  have h := recordAll_describes xs
  refine ⟨h.ticks, h.sum, ?_, h.overBudget, h.lastLive, ?_, fun _ hsum => h.mean_between hsum⟩
  · split
    · rename_i hnil
      subst xs
      exact ⟨rfl, rfl⟩
    · rename_i hne
      exact ⟨h.isLeast hx hne, h.isGreatest hne⟩
  · intro ys hp
    exact (recordAll_describes ys).unique (h.perm hp)

/-- The second of three updates takes the longest time that can be measured, so that the sum is
held from then on. The first takes all of its budget and the third more; it has the last
population, unless it comes first. -/
theorem statistics_aggregate_held :
    ∃ xs ys : List TickRecord, xs.map micros = [5, microsLimit, 7] ∧
      xs.map Prod.snd = [some 5999, none, some 6000] ∧
      (∀ x ∈ xs, x.micros ≤ microsLimit) ∧ ys.Perm xs ∧ ys ≠ xs ∧
      (recordAll xs).ticks = 3 ∧ (recordAll xs).sumMicros = microsLimit ∧
      IsLeast {m | m ∈ xs.map micros} (recordAll xs).minMicros ∧
      (recordAll xs).overBudget = 1 ∧ (recordAll xs).lastLive = 30 ∧
      recordAll ys = { recordAll xs with lastLive := 20 } := by
  let first : TickRecord := (⟨1, 5, 10⟩, some 5999)
  let second : TickRecord := (⟨2, microsLimit, 20⟩, none)
  let third : TickRecord := (⟨3, 7, 30⟩, some 6000)
  have hx : ∀ x ∈ [first, second, third], x.micros ≤ microsLimit := by decide
  have hp : [third, first, second].Perm [first, second, third] :=
    (List.perm_append_comm : ([third] ++ [first, second]).Perm ([first, second] ++ [third]))
  have hne : [third, first, second].map micros ≠ [first, second, third].map micros := by decide
  obtain ⟨hticks, hsum, hmin, hover, hlive, hperm, -⟩ := statistics_aggregate hx
  refine ⟨_, _, rfl, rfl, hx, hp, fun he => hne (congrArg _ he), hticks, hsum.trans ?_, hmin.1,
    hover.trans ?_, hlive, hperm _ hp⟩
  · decide
  · decide

end TickStats

end TickWorld
