import Mathlib.Data.List.Forall2
import Mathlib.Order.Bounds.Basic
import TickWorld.Proofs.Schedule.Turn

namespace TickWorld.Drift

open Schedule (Call remembered)

variable {ε σ : Type} [DecidableEq ε] [ComponentKind ε] [DecidableEq σ] [SystemKind σ]
  [SystemBehavior (Kind ε) σ]

/-- The list has the name of each pool and the number of its values, in the order in which the pools
were created. -/
def Counts (r : Registry (Kind ε)) (l : List (String × Nat)) : Prop :=
  List.Forall₂ (fun entry p => entry = (ComponentKind.name p.kind, p.pool.values.size)) l
    r.pools.pools.toList

/-- The report says of a registry how many entities live in it and what its pools hold. -/
structure Report.Describes (report : Report) (r : Registry (Kind ε)) : Prop where
  live : report.live = r.entities.length
  pools : Counts r report.pools
  centroid : report.centroid = meanPlace r

omit [DecidableEq ε] in
theorem counts_poolSizes (r : Registry (Kind ε)) : Counts r r.poolSizes := by
  rw [Counts, Registry.poolSizes, Pools.census, List.forall₂_map_left_iff, List.forall₂_same]
  exact fun p _ => rfl

theorem Report.describes_capture (tick : Nat) (r : Registry (Kind ε)) :
    (Report.capture tick r).Describes r :=
  ⟨Array.length_toList.symm, counts_poolSizes r, rfl⟩

omit [DecidableEq σ] in
theorem Console.update_eq (c : Console) (r : Registry (Kind ε)) :
    c.update r =
      if c.interval ∣ c.ticks + 1 then
        ⟨{ c with ticks := c.ticks + 1, last := some (.capture (c.ticks + 1) r) }, r,
          #[.worldReported (c.ticks + 1) r.size r.poolSizes]⟩
      else ⟨{ c with ticks := c.ticks + 1 }, r, #[]⟩ := by
  have hdvd : (c.interval = 0 ∨ (c.ticks + 1) % c.interval ≠ 0) ↔ ¬c.interval ∣ c.ticks + 1 := by
    rw [Nat.dvd_iff_mod_eq_zero]
    constructor
    · rintro (h | h)
      · rw [h, Nat.mod_zero]
        exact Nat.succ_ne_zero _
      · exact h
    · exact .inr
  simp only [Console.update, hdvd]
  by_cases h : c.interval ∣ c.ticks + 1
  · rw [if_pos h, if_neg (not_not.mpr h)]
    rfl
  · rw [if_neg h, if_pos h]

variable {n : Nat} {zs : List (Schedule (Kind ε) (Role σ))}
  {z : Schedule (Kind ε) (Role σ)}

def lastReport (n : Nat) (zs : List (Schedule (Kind ε) (Role σ))) : Option Report :=
  if 0 < n ∧ n ≤ zs.length then
    (zs[zs.length / n * n - 1]?).map fun z =>
      Report.capture (zs.length / n * n) (z.moment .console)
  else none

theorem lastReport_concat_of_dvd (h : n ∣ zs.length + 1) :
    lastReport n (zs ++ [z]) = some (.capture (zs.length + 1) (z.moment .console)) := by
  have hpos : 0 < n := Nat.pos_of_dvd_of_pos h (Nat.succ_pos _)
  rw [lastReport, List.length_append, List.length_singleton, Nat.div_mul_cancel h,
    if_pos ⟨hpos, Nat.le_of_dvd (Nat.succ_pos _) h⟩, Nat.add_sub_cancel,
    List.getElem?_concat_length]
  rfl

theorem lastReport_concat_of_not_dvd (h : ¬n ∣ zs.length + 1) :
    lastReport n (zs ++ [z]) = lastReport n zs := by
  have hle : n ≤ zs.length + 1 ↔ n ≤ zs.length := by
    have hne : n ≠ zs.length + 1 := fun he => h (he ▸ Nat.dvd_refl n)
    omega
  rw [lastReport, lastReport, List.length_append, List.length_singleton,
    Nat.succ_div_of_not_dvd h]
  simp only [hle]
  split
  · rename_i hi
    obtain ⟨hpos, hi⟩ := hi
    have hlt : zs.length / n * n - 1 < zs.length := by
      have hdiv := Nat.div_mul_le_self zs.length n
      omega
    rw [List.getElem?_append_left hlt]
  · rfl

/-- A console counts its turns and keeps the last report. -/
theorem remembered_console (n : Nat) (zs : List (Schedule (Kind ε) (Role σ))) :
    remembered (s := Role.console) ({ interval := n } : Console) zs =
      (⟨n, zs.length, lastReport n zs⟩ : Console) := by
  induction zs using List.reverseRecOn with
  | nil =>
    have hnone : lastReport n ([] : List (Schedule (Kind ε) (Role σ))) = none :=
      if_neg fun h => absurd h.2 (Nat.not_le_of_lt h.1)
    rw [hnone]
    rfl
  | append_singleton zs z ih =>
    rw [Schedule.remembered_concat, ih, List.length_append, List.length_singleton]
    refine (congrArg Outcome.result (Console.update_eq _ _)).trans ?_
    by_cases h : n ∣ zs.length + 1
    · rw [if_pos h, lastReport_concat_of_dvd h]
    · rw [if_neg h, lastReport_concat_of_not_dvd h]

/-- What a console has seen and reported in some turns, and the events it emitted then. -/
structure Reporting (n : Nat) (zs : List (Schedule (Kind ε) (Role σ))) (c : Console)
    (events : List Event) : Prop where
  interval : c.interval = n
  ticks : c.ticks = zs.length
  present : c.last.isSome = true ↔ 0 < n ∧ n ≤ zs.length
  last : ∀ report, c.last = some report →
    IsGreatest {m | n ∣ m ∧ m ≤ zs.length} report.tick ∧
      ∃ z, zs[report.tick - 1]? = some z ∧ report.Describes (z.moment .console)
  emitted : events.length = zs.length / n
  each : ∀ i < zs.length / n, ∃ z pools, zs[(i + 1) * n - 1]? = some z ∧
    Counts (z.moment .console) pools ∧ events[i]? = some (.worldReported ((i + 1) * n)
      (z.moment .console).entities.length pools)

theorem isGreatest_multiple (h : 0 < n) (k : Nat) :
    IsGreatest {m | n ∣ m ∧ m ≤ k} (k / n * n) := by
  refine ⟨⟨Nat.dvd_mul_left _ _, Nat.div_mul_le_self k n⟩, ?_⟩
  rintro m ⟨⟨j, rfl⟩, hm⟩
  rw [Nat.mul_comm] at hm ⊢
  exact Nat.mul_le_mul_right n ((Nat.le_div_iff_mul_le h).mpr hm)

theorem lastReport_eq_some {report : Report} (hr : lastReport n zs = some report) :
    IsGreatest {m | n ∣ m ∧ m ≤ zs.length} report.tick ∧
      ∃ z, zs[report.tick - 1]? = some z ∧ report.Describes (z.moment .console) := by
  rw [lastReport] at hr
  split at hr
  · rename_i h
    obtain ⟨z, hz, rfl⟩ := Option.map_eq_some_iff.mp hr
    exact ⟨isGreatest_multiple h.1 zs.length, z, hz, Report.describes_capture _ _⟩
  · cases hr

theorem isSome_lastReport :
    (lastReport n zs).isSome = true ↔ 0 < n ∧ n ≤ zs.length := by
  rw [lastReport]
  split
  · rename_i h
    have hlt : zs.length / n * n - 1 < zs.length := by
      have hdiv := Nat.div_mul_le_self zs.length n
      omega
    rw [Option.isSome_map, List.getElem?_eq_getElem hlt]
    exact iff_of_true rfl h
  · rename_i h
    exact iff_of_false Bool.false_ne_true h

/-- The turns of a console, each after those before it. -/
def Successive (n : Nat) (zs : List (Schedule (Kind ε) (Role σ))) : Prop :=
  ∀ (i : Nat) (z : Schedule (Kind ε) (Role σ)), zs[i]? = some z →
    ∃ c : Console, c.interval = n ∧ c.ticks = i ∧ z.Turn .console c

theorem Successive.init (h : Successive n (zs ++ [z])) : Successive n zs := by
  intro i z' hz
  obtain ⟨hi, -⟩ := List.getElem?_eq_some_iff.mp hz
  apply h i z'
  rw [List.getElem?_append_left hi, hz]

theorem Successive.turnEvents_concat (h : Successive n (zs ++ [z])) :
    Schedule.turnEvents .console (zs ++ [z]) = Schedule.turnEvents .console zs ++
      if n ∣ zs.length + 1 then [.worldReported (zs.length + 1) (z.moment .console).size
        (z.moment .console).poolSizes] else [] := by
  obtain ⟨c, hn, ht, hturn⟩ := h zs.length z List.getElem?_concat_length
  have hevents : (SystemBehavior.update (Role.console : Role σ) c (z.moment .console)).events =
      (c.update (z.moment .console)).events := rfl
  rw [Schedule.turnEvents, List.flatMap_append, List.flatMap_singleton, hturn.turn?,
    Option.elim_some, hevents, Console.update_eq, hn, ht]
  congr 1
  split <;> rfl

theorem Successive.reports (h : Successive n zs) :
    (Schedule.turnEvents .console zs).length = zs.length / n ∧
      ∀ i < zs.length / n, ∃ z, zs[(i + 1) * n - 1]? = some z ∧
        (Schedule.turnEvents .console zs)[i]? = some (.worldReported ((i + 1) * n)
          (z.moment .console).size (z.moment .console).poolSizes) := by
  induction zs using List.reverseRecOn with
  | nil =>
    rw [List.length_nil, Nat.zero_div]
    exact ⟨rfl, fun i hi => absurd hi (Nat.not_lt_zero i)⟩
  | append_singleton zs z ih =>
    obtain ⟨hlength, hreports⟩ := ih h.init
    rw [h.turnEvents_concat, List.length_append, List.length_append, List.length_singleton, hlength,
      Nat.succ_div]
    -- Earlier reports stand where they stood, whether this turn adds one or not.
    have hbefore : ∀ i < zs.length / n, ∃ z', (zs ++ [z])[(i + 1) * n - 1]? = some z' ∧
        ∀ l, (Schedule.turnEvents .console zs ++ l)[i]? = some (.worldReported ((i + 1) * n)
          (z'.moment .console).size (z'.moment .console).poolSizes) := by
      intro i hi
      obtain ⟨z', hz, he⟩ := hreports i hi
      refine ⟨z', ?_, fun l => ?_⟩
      · obtain ⟨hlt, -⟩ := List.getElem?_eq_some_iff.mp hz
        rw [List.getElem?_append_left hlt, hz]
      · rw [List.getElem?_append_left (hi.trans_eq hlength.symm), he]
    by_cases hn : n ∣ zs.length + 1
    · rw [if_pos hn, if_pos hn]
      refine ⟨rfl, ?_⟩
      intro i hi
      rcases Nat.lt_succ_iff_lt_or_eq.mp hi with hi | rfl
      · obtain ⟨z', hz, he⟩ := hbefore i hi
        exact ⟨z', hz, he _⟩
      · have hmul : (zs.length / n + 1) * n = zs.length + 1 := by
          rw [← Nat.succ_div_of_dvd hn, Nat.div_mul_cancel hn]
        rw [hmul, Nat.add_sub_cancel, ← hlength, List.getElem?_concat_length,
          List.getElem?_concat_length]
        exact ⟨z, rfl, rfl⟩
    · rw [if_neg hn, if_neg hn]
      refine ⟨rfl, ?_⟩
      intro i hi
      obtain ⟨z', hz, he⟩ := hbefore i hi
      exact ⟨z', hz, he _⟩

theorem Successive.reporting (h : Successive n zs) :
    Reporting n zs ⟨n, zs.length, lastReport n zs⟩ (Schedule.turnEvents .console zs) := by
  obtain ⟨hlength, hreports⟩ := h.reports
  refine ⟨rfl, rfl, isSome_lastReport, fun _ => lastReport_eq_some, hlength, ?_⟩
  intro i hi
  obtain ⟨z, hz, he⟩ := hreports i hi
  have hlive : (z.moment .console).entities.length = (z.moment .console).size :=
    Array.length_toList
  exact ⟨z, _, hz, counts_poolSizes _, hlive ▸ he⟩

/-- Whatever happens to a schedule before a console is added and after it, as long as no other
console is added and this one is not removed, it reports in every turn whose number is a multiple
of its interval, on the registry as the systems in earlier slots have left it then. -/
theorem console_reports (r : Registry (Kind ε)) (before cs : List (Call (Kind ε) (Role σ)))
    (n : Nat) (hcs : ∀ c ∈ cs, c.Spares .console) :
    let x := ((afterCalls Call.perform (.ofRegistry r) before).add .console
      ({ interval := n } : Console)).state
    (∃ c, (afterCalls Call.perform x cs).get? .console = some c ∧
      Reporting n (x.turns .console cs) c
        (Schedule.turnEvents .console (x.turns .console cs))) ∧
    Successive n (x.turns .console cs) := by
  intro x
  let d₀ : Roster (Kind ε) (Role σ) := afterCalls Call.meaning (.ofRegistry r) before
  let d := (d₀.add .console ({ interval := n } : Console)).2
  have hx : x = d.schedule := by
    have hbefore := (Roster.ofRegistry r : Roster (Kind ε) (Role σ)).perform_calls before
    have hadd := (d₀.add_schedule .console ({ interval := n } : Console)).2
    rw [← hbefore] at hadd
    exact hadd
  have hentry : (d.entry .console).map Prod.fst = some ({ interval := n } : Console) :=
    congrArg (Option.map Prod.fst) (Roster.entry_write_self _ _ _)
  obtain ⟨hlast, hturns⟩ := Roster.turns_of_entry hentry hcs
  rw [remembered_console] at hlast
  rw [hx]
  have hs : Successive n (d.schedule.turns .console cs) := by
    intro i z hz
    obtain ⟨hi, -⟩ := List.getElem?_eq_some_iff.mp hz
    refine ⟨_, ?_, ?_, hturns i z hz⟩
    · rw [remembered_console]
    · rw [remembered_console]
      exact List.length_take_of_le hi.le
  refine ⟨⟨_, ?_, hs.reporting⟩, hs⟩
  rw [Roster.perform_calls, Roster.get?_schedule]
  exact hlast

/-- The console misses the second of three updates. At its turn in the third one there are three
spawned drifters, of which one has mana, and an entity that does not outlive that update. -/
theorem console_reports_paused :
    ∃ (r : Registry (Kind Empty)) (before cs : List (Call (Kind Empty) (Role Empty)))
      (x : Schedule (Kind Empty) (Role Empty)) (c : Console) (report : Report),
      cs = [.update, .setActive .console false, .update, .setActive .console true,
        .add .decay (Decay.mk #[] 0), .update] ∧
      (∀ c ∈ cs, c.Spares .console) ∧
      x = ((afterCalls Call.perform (.ofRegistry r) before).add .console
        ({ interval := 2 } : Console)).state ∧
      (afterCalls Call.perform x cs).get? .console = some c ∧ c.ticks = 2 ∧
      (Schedule.turnEvents .console (x.turns .console cs)).length = 1 ∧
      c.last = some report ∧ report.tick = 2 ∧ report.live = 4 ∧
      report.pools = [("indie::gameplay::components::Lifetime", 4),
        ("indie::gameplay::components::Position", 3), ("indie::gameplay::components::Velocity", 3),
        ("indie::gameplay::components::Health", 3), ("indie::gameplay::components::Mana", 1)] ∧
      (afterCalls Call.perform x cs).registry.size = 3 := by
  let r₀ : Registry (Kind Empty) := { sizing := ⟨0, 0⟩ }
  let r := (r₀.create.state.assign ⟨0⟩ .lifetime (Lifetime.mk 1)).state
  let before : List (Call (Kind Empty) (Role Empty)) :=
    [.add .spawner ({ perTick := 1, nextSeed := 0 } : Spawner)]
  let cs : List (Call (Kind Empty) (Role Empty)) :=
    [.update, .setActive .console false, .update, .setActive .console true,
      .add .decay (Decay.mk #[] 0), .update]
  let x := ((afterCalls Call.perform (.ofRegistry r) before).add .console
    ({ interval := 2 } : Console)).state
  have hcs : ∀ c ∈ cs, c.Spares .console := by
    simp [cs, Call.Spares]
  obtain ⟨⟨c, hc, hr⟩, -⟩ := console_reports r before cs 2 hcs
  have hturns : (x.turns .console cs).length = 2 := by decide +kernel
  have hlive : (x.turns .console cs)[1]?.map (fun z => (z.moment .console).entities.length) =
      some 4 := by
    decide +kernel
  have hpools : (x.turns .console cs)[1]?.map (fun z => (z.moment .console).pools.pools.toList.map
      fun p => (ComponentKind.name p.kind, p.pool.values.size)) =
      some [("indie::gameplay::components::Lifetime", 4),
        ("indie::gameplay::components::Position", 3), ("indie::gameplay::components::Velocity", 3),
        ("indie::gameplay::components::Health", 3), ("indie::gameplay::components::Mana", 1)] := by
    decide +kernel
  have hpresent : c.last.isSome = true := hr.present.mpr (by rw [hturns]; decide)
  obtain ⟨report, hreport⟩ := Option.isSome_iff_exists.mp hpresent
  obtain ⟨hgreatest, z, hz, hdescribes⟩ := hr.last report hreport
  have htick : report.tick = 2 := by
    rw [hturns] at hgreatest
    exact hgreatest.unique (isGreatest_multiple (by decide) 2)
  rw [htick] at hz
  rw [hz] at hlive hpools
  have hlist := List.forall₂_map_right_iff.mpr hdescribes.pools
  rw [List.forall₂_eq_eq_eq] at hlist
  refine ⟨r, before, cs, x, c, report, rfl, hcs, rfl, hc, hr.ticks.trans hturns, ?_, hreport,
    htick, hdescribes.live.trans (Option.some.inj hlive), hlist.trans (Option.some.inj hpools),
    by decide +kernel⟩
  rw [hr.emitted, hturns]

end TickWorld.Drift
