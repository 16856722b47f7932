import Mathlib.Data.List.Induction
import Mathlib.Data.List.Nodup
import Mathlib.Logic.Function.Basic
import TickWorld.Proofs.Refines
import TickWorld.Schedule

namespace TickWorld

open SystemKind (State kindName systemName)

theorem lookup_reverse_zipIdx {α : Type} [DecidableEq α] {l : List α} (hn : l.Nodup) (a : α) :
    l.zipIdx.reverse.lookup a = l.idxOf? a := by
  induction l using List.reverseRecOn with
  | nil => rfl
  | append_singleton l b ih =>
    obtain ⟨hl, -, hd⟩ := List.nodup_append.mp hn
    have hz : (l ++ [b]).zipIdx.reverse = (b, l.length) :: l.zipIdx.reverse := by
      simp [List.zipIdx_append]
    rw [hz, List.lookup_cons, List.idxOf?, List.findIdx?_append]
    by_cases hb : a = b
    · subst b
      have ha : l.findIdx? (· == a) = none := by
        rw [List.findIdx?_eq_none_iff]
        intro c hc
        simpa using hd c hc a (by simp)
      simp [ha]
    · have hb' : (a == b) = false := by simpa using hb
      have hb'' : (b == a) = false := by simpa using Ne.symm hb
      rw [hb', ih hl]
      simp [List.findIdx?_cons, hb'', List.idxOf?]

/-- Kinds of system in the order of their first addition, and for each kind the state and the
activity of the system that is registered. -/
structure Roster (κ σ : Type) [ComponentKind κ] [SystemKind σ] where
  registry : Registry κ
  order : List σ
  entry : (s : σ) → Option (State s × Bool)
  /-- The number of completed ticks. -/
  ticks : Nat
  nodup : order.Nodup
  listed : ∀ {s : σ}, s ∉ order → entry s = none

variable {κ σ : Type} [ComponentKind κ] [SystemKind σ]

namespace Roster

def ofRegistry (registry : Registry κ) : Roster κ σ where
  registry
  order := []
  entry _ := none
  ticks := 0
  nodup := .nil
  listed _ := rfl

def withRegistry (d : Roster κ σ) (registry : Registry κ) : Roster κ σ := { d with registry }

def standing (d : Roster κ σ) (s : σ) : Option Bool := (d.entry s).map Prod.snd

def slot (d : Roster κ σ) (s : σ) : Option (Installed σ) :=
  (d.entry s).map fun e => ⟨s, e.1, e.2⟩

/-- The schedule of a roster: a slot for each kind in their order. -/
def schedule (d : Roster κ σ) : Schedule κ σ where
  registry := d.registry
  slots := d.order.map d.slot
  index := d.order.zipIdx.reverse
  ticks := d.ticks

variable [DecidableEq σ]

/-- Sets the entry of a kind, which is listed last if it was never listed. -/
def write (d : Roster κ σ) (s : σ) (e : Option (State s × Bool)) : Roster κ σ where
  registry := d.registry
  order := if s ∈ d.order then d.order else d.order ++ [s]
  entry := Function.update d.entry s e
  ticks := d.ticks
  nodup := by
    split
    · exact d.nodup
    · rename_i hs
      exact List.Nodup.append d.nodup (List.nodup_singleton s) (by simpa using hs)
  listed := by
    intro t ht
    have hne : t ≠ s := by
      rintro rfl
      split at ht <;> simp_all
    have hto : t ∉ d.order := by
      split at ht <;> simp_all
    rw [Function.update_of_ne hne, d.listed hto]

def remove (d : Roster κ σ) (s : σ) : (Option (State s) × Array Event) × Roster κ σ :=
  match d.entry s with
  | none => ((none, #[]), d)
  | some (state, _) =>
    ((some state, #[.systemRemoved (systemName s state) (d.order.idxOf s)]), d.write s none)

def setActive (d : Roster κ σ) (s : σ) (active : Bool) :
    (Except Failure Unit × Array Event) × Roster κ σ :=
  match d.entry s with
  | none => ((.error (.systemNotRegistered (kindName s)), #[]), d)
  | some (state, _) =>
    ((.ok (), #[.systemToggled (systemName s state) active]), d.write s (some (state, active)))

def modify (d : Roster κ σ) (s : σ) (f : State s → State s) : Option (State s) × Roster κ σ :=
  match d.entry s with
  | none => (none, d)
  | some (state, active) => (some state, d.write s (some (f state, active)))

variable [SystemBehavior κ σ]

/-- Attaches a system to the registry, once, and registers it, active. -/
def add (d : Roster κ σ) (s : σ) (state : State s) :
    (Option (State s) × Array Event) × Roster κ σ :=
  let attached := SystemBehavior.attach s state d.registry
  let name := systemName s attached.result
  let replaced := if (d.entry s).isSome then #[.systemReplaced name (d.order.idxOf s)] else #[]
  ((some attached.result,
      attached.events ++ replaced ++ #[.systemRegistered name (d.order.idxOf s)]),
    (d.withRegistry attached.state).write s (some (attached.result, true)))

def tick (d : Roster κ σ) (s : σ) : Array Event × Roster κ σ :=
  match d.entry s with
  | some (state, true) =>
    let ran := SystemBehavior.update s state d.registry
    (ran.events, (d.withRegistry ran.state).write s (some (ran.result, true)))
  | _ => (#[], d)

def tickAll (d : Roster κ σ) : List σ → Array Event × Roster κ σ
  | [] => (#[], d)
  | s :: rest =>
    let first := d.tick s
    let others := first.2.tickAll rest
    (first.1 ++ others.1, others.2)

def update (d : Roster κ σ) : Array Event × Roster κ σ :=
  let ran := d.tickAll d.order
  (ran.1, { ran.2 with ticks := ran.2.ticks + 1 })

end Roster

variable [DecidableEq σ]

namespace Schedule

variable (κ σ) in
/-- What can be done to a schedule. -/
inductive Call where
  | add (s : σ) (state : State s)
  | remove (s : σ)
  | setActive (s : σ) (active : Bool)
  | modify (s : σ) (f : State s → State s)
  | update
  /-- Changes the registry between two updates. -/
  | onRegistry (f : Registry κ → Registry κ)

def Call.Answer : Call κ σ → Type
  | add s _ => Option (State s)
  | remove s => Option (State s)
  | setActive .. => Except Failure Unit
  | modify s _ => Option (State s)
  | update => Unit
  | onRegistry _ => Unit

variable [SystemBehavior κ σ]

/-- The answer to a call, its events and the schedule after it. An addition answers with what then
stands in the slot of the added kind, a change of a system with what it was. -/
def Call.perform : (c : Call κ σ) → Schedule κ σ → (c.Answer × Array Event) × Schedule κ σ
  | add s state, x =>
    let o := x.add s state
    ((o.state.get? s, o.events), o.state)
  | remove s, x =>
    let o := x.remove s
    ((o.result, o.events), o.state)
  | setActive s active, x =>
    let o := x.setActive s active
    ((o.result, o.events), o.state)
  | modify s f, x => ((x.get? s, #[]), x.modify s f)
  | update, x =>
    let o := x.update
    (((), o.events), o.state)
  | onRegistry f, x => (((), #[]), { x with registry := f x.registry })

def Call.meaning : (c : Call κ σ) → Roster κ σ → (c.Answer × Array Event) × Roster κ σ
  | add s state, d => d.add s state
  | remove s, d => d.remove s
  | setActive s active, d => d.setActive s active
  | modify s f, d =>
    let o := d.modify s f
    ((o.1, #[]), o.2)
  | update, d =>
    let o := d.update
    (((), o.1), o.2)
  | onRegistry f, d => (((), #[]), d.withRegistry (f d.registry))

end Schedule

namespace Roster

variable {d : Roster κ σ} {s t : σ} {e : Option (State s × Bool)} {i : Nat} {l : List σ}

theorem position?_schedule (d : Roster κ σ) (s : σ) :
    d.schedule.position? s = d.order.idxOf? s :=
  lookup_reverse_zipIdx d.nodup s

theorem installed?_schedule (d : Roster κ σ) (s : σ) : d.schedule.installed? s = d.slot s := by
  rw [Schedule.installed?, position?_schedule]
  cases hi : d.order.idxOf? s with
  | none =>
    have hs : s ∉ d.order := by simpa using hi
    rw [slot, d.listed hs]
    rfl
  | some i =>
    obtain ⟨hl, he, -⟩ := List.idxOf?_eq_some_iff.mp hi
    simp [schedule, hl, he]

theorem get?_schedule (d : Roster κ σ) (s : σ) : d.schedule.get? s = (d.entry s).map Prod.fst := by
  rw [Schedule.get?, installed?_schedule, slot]
  cases d.entry s <;> simp [Installed.cast?]

theorem has_schedule (d : Roster κ σ) (s : σ) : d.schedule.has s = (d.entry s).isSome := by
  rw [Schedule.has, installed?_schedule, slot, Option.isSome_map]

theorem isActive_schedule (d : Roster κ σ) (s : σ) :
    d.schedule.isActive s = (d.entry s).any Prod.snd := by
  rw [Schedule.isActive, installed?_schedule, slot]
  cases d.entry s <;> rfl

omit [DecidableEq σ] in
theorem systems_schedule (d : Roster κ σ) : d.schedule.systems = d.order.filterMap d.slot := by
  calc d.schedule.systems = (d.order.map d.slot).filterMap id := rfl
    _ = d.order.filterMap d.slot := by rw [List.filterMap_map]; rfl

theorem entry_write_self (d : Roster κ σ) (s : σ) (e : Option (State s × Bool)) :
    (d.write s e).entry s = e :=
  Function.update_self ..

theorem slot_write_self (d : Roster κ σ) (s : σ) (e : Option (State s × Bool)) :
    (d.write s e).slot s = e.map fun e => ⟨s, e.1, e.2⟩ := by
  rw [slot, entry_write_self]

theorem entry_write_of_ne (d : Roster κ σ) (e : Option (State s × Bool)) (ht : t ≠ s) :
    (d.write s e).entry t = d.entry t :=
  Function.update_of_ne ht _ _

theorem slot_write_of_ne (d : Roster κ σ) (e : Option (State s × Bool)) (ht : t ≠ s) :
    (d.write s e).slot t = d.slot t := by
  rw [slot, slot, entry_write_of_ne d e ht]

theorem mem_order_of_entry {x : State s × Bool} (he : d.entry s = some x) : s ∈ d.order := by
  by_contra hs
  rw [d.listed hs] at he
  cases he

theorem map_slot_write (hs : s ∉ l) : l.map (d.write s e).slot = l.map d.slot :=
  List.map_congr_left fun _ ht => slot_write_of_ne d e fun he => hs (he ▸ ht)

/-- The slot of a listed kind is overwritten in its place. -/
theorem schedule_write (hi : d.order.idxOf? s = some i) :
    (d.write s e).schedule =
      { d.schedule with slots := d.schedule.slots.set i ((d.write s e).slot s) } := by
  obtain ⟨hl, hx, -⟩ := List.idxOf?_eq_some_iff.mp hi
  have ho : (d.write s e).order = d.order := if_pos (hx ▸ List.getElem_mem hl)
  have hslots : d.order.map (d.write s e).slot =
      (d.order.map d.slot).set i ((d.write s e).slot s) := by
    apply List.ext_getElem
    · simp
    · intro j hj _
      rw [List.length_map] at hj
      rw [List.getElem_set, List.getElem_map, List.getElem_map]
      split
      · rename_i hij
        subst hij
        rw [hx]
      · rename_i hij
        have hne : d.order[j] ≠ s := fun he =>
          hij ((List.getElem_inj d.nodup).mp (hx.trans he.symm))
        rw [slot_write_of_ne d e hne]
  rw [schedule, schedule, ho, hslots]
  rfl

theorem schedule_write_new (hs : s ∉ d.order) :
    (d.write s e).schedule =
      { d.schedule with
        slots := d.schedule.slots ++ [(d.write s e).slot s]
        index := (s, d.order.length) :: d.schedule.index } := by
  have ho : (d.write s e).order = d.order ++ [s] := if_neg hs
  rw [schedule, ho, List.map_append, map_slot_write hs, List.zipIdx_append]
  simp [schedule, write]

theorem idxOf_eq (hi : d.order.idxOf? s = some i) : d.order.idxOf s = i := by
  rw [List.idxOf_eq_getD_idxOf?, hi, Option.getD_some]

theorem place_schedule (d : Roster κ σ) (s : σ) (state : State s) :
    (d.schedule.place ⟨s, state, true⟩).result = d.order.idxOf s ∧
    (d.schedule.place ⟨s, state, true⟩).state = (d.write s (some (state, true))).schedule ∧
    (d.schedule.place ⟨s, state, true⟩).events =
      if (d.entry s).isSome then #[.systemReplaced (systemName s state) (d.order.idxOf s)]
      else #[] := by
  rw [Schedule.place, position?_schedule, has_schedule]
  cases hi : d.order.idxOf? s with
  | none =>
    have hs : s ∉ d.order := by simpa using hi
    refine ⟨?_, ?_, ?_⟩
    · simp [schedule, List.idxOf_eq_length hs]
    · rw [schedule_write_new hs, slot_write_self]
      simp [schedule]
    · simp [d.listed hs]
  | some i =>
    refine ⟨(idxOf_eq hi).symm, ?_, ?_⟩
    · rw [schedule_write hi, slot_write_self]
      rfl
    · rw [idxOf_eq hi]
      rfl

variable [SystemBehavior κ σ]

theorem add_schedule (d : Roster κ σ) (s : σ) (state : State s) :
    (d.schedule.add s state).events = (d.add s state).1.2 ∧
    (d.schedule.add s state).state = (d.add s state).2.schedule := by
  let attached := SystemBehavior.attach s state d.registry
  let placed := (d.withRegistry attached.state).schedule.place ⟨s, attached.result, true⟩
  obtain ⟨hr, hs, he⟩ := (d.withRegistry attached.state).place_schedule s attached.result
  refine ⟨?_, hs⟩
  calc (d.schedule.add s state).events
      = attached.events ++ placed.events ++
          #[.systemRegistered (systemName s attached.result) placed.result] := rfl
    _ = (d.add s state).1.2 := by rw [he, hr]; rfl

omit [SystemBehavior κ σ] in
theorem idxOf?_of_entry {x : State s × Bool} (hx : d.entry s = some x) :
    d.order.idxOf? s = some (d.order.idxOf s) := by
  cases hi : d.order.idxOf? s with
  | none =>
    have hs : s ∉ d.order := by simpa using hi
    exact absurd (mem_order_of_entry hx) hs
  | some i => rw [idxOf_eq hi]

omit [SystemBehavior κ σ] in
theorem remove_schedule (d : Roster κ σ) (s : σ) :
    ((d.schedule.remove s).result, (d.schedule.remove s).events) = (d.remove s).1 ∧
    (d.schedule.remove s).state = (d.remove s).2.schedule := by
  rw [Schedule.remove, position?_schedule, installed?_schedule, slot, remove]
  cases hx : d.entry s with
  | none =>
    cases d.order.idxOf? s <;> exact ⟨rfl, rfl⟩
  | some x =>
    have hi := idxOf?_of_entry hx
    rw [hi]
    refine ⟨?_, ?_⟩
    · simp [Installed.cast?, Installed.name]
    · simp only [schedule_write hi, slot_write_self]
      rfl

omit [SystemBehavior κ σ] in
theorem setActive_schedule (d : Roster κ σ) (s : σ) (active : Bool) :
    ((d.schedule.setActive s active).result, (d.schedule.setActive s active).events) =
      (d.setActive s active).1 ∧
    (d.schedule.setActive s active).state = (d.setActive s active).2.schedule := by
  rw [Schedule.setActive, position?_schedule, installed?_schedule, slot, setActive]
  cases hx : d.entry s with
  | none =>
    cases d.order.idxOf? s <;> exact ⟨rfl, rfl⟩
  | some x =>
    have hi := idxOf?_of_entry hx
    rw [hi]
    refine ⟨rfl, ?_⟩
    simp only [schedule_write hi, slot_write_self]
    rfl

omit [SystemBehavior κ σ] in
theorem modify_schedule (d : Roster κ σ) (s : σ) (f : State s → State s) :
    d.schedule.get? s = (d.modify s f).1 ∧
    d.schedule.modify s f = (d.modify s f).2.schedule := by
  rw [get?_schedule, Schedule.modify, position?_schedule, installed?_schedule, slot, modify]
  cases hx : d.entry s with
  | none =>
    cases d.order.idxOf? s <;> exact ⟨rfl, rfl⟩
  | some x =>
    have hi := idxOf?_of_entry hx
    rw [hi]
    refine ⟨rfl, ?_⟩
    simp only [schedule_write hi, slot_write_self]
    simp [Installed.cast?]

theorem entry_tick_of_ne (d : Roster κ σ) (ht : t ≠ s) : (d.tick s).2.entry t = d.entry t := by
  rw [tick]
  split
  · exact entry_write_of_ne _ _ ht
  · rfl

theorem order_tick (d : Roster κ σ) (s : σ) : (d.tick s).2.order = d.order := by
  rw [tick]
  split
  · rename_i hx
    exact if_pos (mem_order_of_entry hx)
  · rfl

theorem ticks_tick (d : Roster κ σ) (s : σ) : (d.tick s).2.ticks = d.ticks := by
  rw [tick]
  split <;> rfl

theorem standing_tick (d : Roster κ σ) (s t : σ) : (d.tick s).2.standing t = d.standing t := by
  by_cases ht : t = s
  · subst t
    rw [standing, standing, tick]
    split
    · rename_i hx
      rw [hx, entry_write_self]
      rfl
    · rfl
  · rw [standing, standing, entry_tick_of_ne d ht]

theorem entry_tickAll_of_not_mem (d : Roster κ σ) (ht : t ∉ l) :
    (d.tickAll l).2.entry t = d.entry t := by
  induction l generalizing d with
  | nil => rfl
  | cons s l ih =>
    obtain ⟨hs, hl⟩ := not_or.mp (List.mem_cons.not.mp ht)
    rw [tickAll, ih _ hl, entry_tick_of_ne d hs]

theorem order_tickAll (d : Roster κ σ) (l : List σ) : (d.tickAll l).2.order = d.order := by
  induction l generalizing d with
  | nil => rfl
  | cons s l ih => rw [tickAll, ih, order_tick]

theorem ticks_tickAll (d : Roster κ σ) (l : List σ) : (d.tickAll l).2.ticks = d.ticks := by
  induction l generalizing d with
  | nil => rfl
  | cons s l ih => rw [tickAll, ih, ticks_tick]

theorem standing_tickAll (d : Roster κ σ) (l : List σ) (t : σ) :
    (d.tickAll l).2.standing t = d.standing t := by
  induction l generalizing d with
  | nil => rfl
  | cons s l ih => rw [tickAll, ih, standing_tick]

/-- What a system in its slot does to the registry is what the tick of its kind does. -/
theorem tick_slot {y : Installed σ} (hy : d.slot s = some y) :
    (y.tick d.registry).state = (d.tick s).2.registry ∧
      (y.tick d.registry).events = (d.tick s).1 ∧
      some (y.tick d.registry).result = (d.tick s).2.slot s := by
  rw [slot, Option.map_eq_some_iff] at hy
  obtain ⟨⟨state, active⟩, hx, rfl⟩ := hy
  rw [tick, hx]
  cases active with
  | true =>
    refine ⟨rfl, rfl, ?_⟩
    simp only [slot_write_self]
    rfl
  | false =>
    refine ⟨rfl, rfl, ?_⟩
    rw [slot, hx]
    rfl

theorem tick_of_slot_none (hy : d.slot s = none) : d.tick s = (#[], d) := by
  rw [slot, Option.map_eq_none_iff] at hy
  rw [tick, hy]

theorem runSlots_schedule (d : Roster κ σ) (hn : l.Nodup) :
    Schedule.runSlots d.registry (l.map d.slot) =
      ⟨l.map (d.tickAll l).2.slot, (d.tickAll l).2.registry, (d.tickAll l).1⟩ := by
  induction l generalizing d with
  | nil => rfl
  | cons s l ih =>
    obtain ⟨hs, hl⟩ := List.nodup_cons.mp hn
    have hrest : l.map (d.tick s).2.slot = l.map d.slot := by
      refine List.map_congr_left fun t ht => ?_
      have hne : t ≠ s := by
        rintro rfl
        exact hs ht
      rw [slot, slot, entry_tick_of_ne d hne]
    have hfirst : (d.tickAll (s :: l)).2.slot s = (d.tick s).2.slot s := by
      rw [slot, slot, tickAll, entry_tickAll_of_not_mem _ hs]
    have hrun := ih (d.tick s).2 hl
    rw [hrest] at hrun
    rw [List.map_cons, List.map_cons, hfirst]
    cases hy : d.slot s with
    | none =>
      have hd := tick_of_slot_none hy
      rw [hd] at hrun
      rw [Schedule.runSlots, hrun, hd, tickAll, hd, hy]
      simp [Outcome.map]
    | some y =>
      obtain ⟨hreg, hev, hres⟩ := tick_slot hy
      simp only [Schedule.runSlots, Outcome.bind, hreg, hrun, hev, Outcome.map, hres]
      rfl

theorem update_schedule (d : Roster κ σ) :
    d.schedule.update.events = d.update.1 ∧ d.schedule.update.state = d.update.2.schedule := by
  have hr := d.runSlots_schedule d.nodup
  have ho := d.order_tickAll d.order
  have ht := d.ticks_tickAll d.order
  have hu : d.schedule.update =
      ⟨(), ⟨(Schedule.runSlots d.registry (d.order.map d.slot)).state,
        (Schedule.runSlots d.registry (d.order.map d.slot)).result, d.schedule.index, d.ticks + 1⟩,
        (Schedule.runSlots d.registry (d.order.map d.slot)).events⟩ := rfl
  rw [hu, hr, update]
  refine ⟨rfl, ?_⟩
  simp only [schedule, ho, ht]
  rfl

end Roster

end TickWorld
