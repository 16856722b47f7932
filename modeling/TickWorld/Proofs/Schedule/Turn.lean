import TickWorld.Proofs.Schedule.Suspension

namespace TickWorld

open SystemKind (State)

variable {κ σ : Type} [ComponentKind κ] [SystemKind σ]

namespace Schedule

/-- The system of a kind is not replaced, removed or changed by a call, which may activate or
deactivate it, let it have its turn, or handle other systems. -/
def Call.Spares (s : σ) : Call κ σ → Prop
  | add t _ => t ≠ s
  | remove t => t ≠ s
  | modify t _ => t ≠ s
  | setActive .. => True
  | update => True
  | onRegistry _ => True

theorem Call.isUpdate_iff {c : Call κ σ} : c.isUpdate = true ↔ c = .update := by
  cases c <;> simp [isUpdate]

variable [DecidableEq σ] [SystemBehavior κ σ]

/-- The registry at the turn of a kind in the next update: the systems in earlier slots have run. -/
def moment (x : Schedule κ σ) (s : σ) : Registry κ :=
  match x.position? s with
  | some position => (runSlots x.registry (x.slots.take position)).state
  | none => x.registry

def turn? (x : Schedule κ σ) (s : σ) : Option (Outcome (Registry κ) (State s)) :=
  if x.isActive s then (x.get? s).map fun state => SystemBehavior.update s state (x.moment s)
  else none

/-- The schedules before those updates of some calls in which the system of a kind is active. -/
def turns (s : σ) (x : Schedule κ σ) : List (Call κ σ) → List (Schedule κ σ)
  | [] => []
  | c :: cs => (if c.isUpdate && x.isActive s then [x] else []) ++ turns s (c.perform x).2 cs

def turnEvents (s : σ) (zs : List (Schedule κ σ)) : List Event :=
  zs.flatMap fun z => (z.turn? s).elim [] (·.events.toList)

def remembered {s : σ} (state : State s) (zs : List (Schedule κ σ)) : State s :=
  zs.foldl (fun state z => (SystemBehavior.update s state (z.moment s)).result) state

/-- The turn of a system that remembers `state` parts the next update: the systems in earlier slots
run before it, those in later slots after it. -/
structure Turn (x : Schedule κ σ) (s : σ) (state : State s) : Prop where
  isActive : x.isActive s = true
  turn? : x.turn? s = some (SystemBehavior.update s state (x.moment s))
  parts : ∃ position, x.position? s = some position ∧
    x.update.events =
      (runSlots x.registry (x.slots.take position)).events ++
        (SystemBehavior.update s state (x.moment s)).events ++
        (runSlots (SystemBehavior.update s state (x.moment s)).state
          (x.slots.drop (position + 1))).events ∧
    x.update.state.registry =
      (runSlots (SystemBehavior.update s state (x.moment s)).state
        (x.slots.drop (position + 1))).state

theorem remembered_concat {s : σ} (state : State s) (zs : List (Schedule κ σ))
    (z : Schedule κ σ) :
    remembered state (zs ++ [z]) =
      (SystemBehavior.update s (remembered state zs) (z.moment s)).result := by
  rw [remembered, List.foldl_append]
  rfl

theorem turns_concat (s : σ) (x : Schedule κ σ) (cs : List (Call κ σ)) (c : Call κ σ) :
    x.turns s (cs ++ [c]) = x.turns s cs ++
      if c.isUpdate && (afterCalls Call.perform x cs).isActive s then
        [afterCalls Call.perform x cs] else [] := by
  induction cs generalizing x with
  | nil => exact List.append_nil _
  | cons c' cs ih =>
    rw [List.cons_append, turns, ih, turns, List.append_assoc]
    rfl

end Schedule

namespace Roster

open Schedule (Call remembered)

variable [DecidableEq σ] [SystemBehavior κ σ] {d : Roster κ σ} {s : σ} {state : State s} {i : Nat}

theorem tickAll_append (d : Roster κ σ) (l m : List σ) :
    d.tickAll (l ++ m) =
      ((d.tickAll l).1 ++ ((d.tickAll l).2.tickAll m).1, ((d.tickAll l).2.tickAll m).2) := by
  induction l generalizing d with
  | nil => simp [tickAll]
  | cons s l ih => rw [List.cons_append, tickAll, ih, tickAll, Array.append_assoc]

theorem tick_of_active (hx : d.entry s = some (state, true)) :
    d.tick s = ((SystemBehavior.update s state d.registry).events,
      (d.withRegistry (SystemBehavior.update s state d.registry).state).write s
        (some ((SystemBehavior.update s state d.registry).result, true))) := by
  rw [tick, hx]

theorem entry_tickAll_of_idle (he : Idle (d.entry s)) (l : List σ) :
    (d.tickAll l).2.entry s = d.entry s := by
  induction l generalizing d with
  | nil => rfl
  | cons t l ih =>
    have ht : (d.tick t).2.entry s = d.entry s := by
      by_cases hs : s = t
      · subst t
        rw [tick_of_idle he]
      · exact entry_tick_of_ne d hs
    have hrest := ih (d := (d.tick t).2) (by rwa [ht])
    rw [tickAll, hrest, ht]

def upTo (d : Roster κ σ) (i : Nat) : Roster κ σ := (d.tickAll (d.order.take i)).2

def past (d : Roster κ σ) (i : Nat) (s : σ) : Roster κ σ := ((d.upTo i).tick s).2

theorem runSlots_take (d : Roster κ σ) (i : Nat) :
    Schedule.runSlots d.registry (d.schedule.slots.take i) =
      ⟨(d.order.take i).map (d.upTo i).slot, (d.upTo i).registry,
        (d.tickAll (d.order.take i)).1⟩ := by
  have hslots : d.schedule.slots.take i = (d.order.take i).map d.slot := List.map_take.symm
  rw [hslots]
  exact d.runSlots_schedule (d.nodup.sublist (List.take_sublist i _))

theorem moment_schedule (hi : d.order.idxOf? s = some i) :
    d.schedule.moment s = (d.upTo i).registry := by
  rw [Schedule.moment, position?_schedule, hi]
  exact congrArg Outcome.state (d.runSlots_take i)

omit [SystemBehavior κ σ] in
theorem order_split (hi : d.order.idxOf? s = some i) :
    d.order = d.order.take i ++ s :: d.order.drop (i + 1) ∧ s ∉ d.order.take i ∧
      s ∉ d.order.drop (i + 1) ∧ List.Disjoint (d.order.take i) (d.order.drop (i + 1)) := by
  obtain ⟨hl, he, -⟩ := List.idxOf?_eq_some_iff.mp hi
  have hs : d.order = d.order.take i ++ s :: d.order.drop (i + 1) := by
    rw [← he, List.getElem_cons_drop, List.take_append_drop]
  have hn := d.nodup
  rw [hs, List.nodup_append'] at hn
  obtain ⟨-, hn, hd⟩ := hn
  refine ⟨hs, ?_, (List.nodup_cons.mp hn).1, ?_⟩
  · exact fun hm => hd hm List.mem_cons_self
  · exact fun t ht ht' => hd ht (List.mem_cons_of_mem s ht')

theorem runSlots_drop (hi : d.order.idxOf? s = some i) :
    Schedule.runSlots (d.past i s).registry (d.schedule.slots.drop (i + 1)) =
      ⟨(d.order.drop (i + 1)).map ((d.past i s).tickAll (d.order.drop (i + 1))).2.slot,
        ((d.past i s).tickAll (d.order.drop (i + 1))).2.registry,
        ((d.past i s).tickAll (d.order.drop (i + 1))).1⟩ := by
  obtain ⟨-, -, hafter, hdisjoint⟩ := order_split hi
  have hslots : d.schedule.slots.drop (i + 1) = (d.order.drop (i + 1)).map (d.past i s).slot := by
    refine List.map_drop.symm.trans (List.map_congr_left fun t ht => ?_)
    have hts : t ≠ s := fun he => hafter (he ▸ ht)
    have ht' : (d.upTo i).entry t = d.entry t :=
      entry_tickAll_of_not_mem d fun hm => hdisjoint hm ht
    rw [slot, slot, past, entry_tick_of_ne (d.upTo i) hts, ht']
  rw [hslots]
  exact (d.past i s).runSlots_schedule (d.nodup.sublist (List.drop_sublist _ _))

theorem tickAll_order (hi : d.order.idxOf? s = some i) :
    d.tickAll d.order =
      ((d.tickAll (d.order.take i)).1 ++ ((d.upTo i).tick s).1 ++
        ((d.past i s).tickAll (d.order.drop (i + 1))).1,
        ((d.past i s).tickAll (d.order.drop (i + 1))).2) := by
  conv_lhs => rw [(order_split hi).1]
  rw [tickAll_append, tickAll, Array.append_assoc]
  rfl

/-- The turn of an active system lies between the turns of those in earlier and in later slots. -/
theorem turn_of_entry (hx : d.entry s = some (state, true)) :
    d.schedule.Turn s state ∧ d.update.2.entry s =
      some ((SystemBehavior.update s state (d.schedule.moment s)).result, true) := by
  have hi := idxOf?_of_entry hx
  generalize d.order.idxOf s = i at hi
  obtain ⟨-, hbefore, hafter, -⟩ := order_split hi
  have hx' : (d.upTo i).entry s = some (state, true) :=
    (entry_tickAll_of_not_mem d hbefore).trans hx
  have htick := tick_of_active hx'
  rw [← moment_schedule hi] at htick
  have hall := tickAll_order hi
  have hlater := runSlots_drop hi
  have hentry : (d.tickAll d.order).2.entry s =
      some ((SystemBehavior.update s state (d.schedule.moment s)).result, true) := by
    rw [hall, entry_tickAll_of_not_mem _ hafter, past, htick, entry_write_self]
  have hregistry : (d.past i s).registry =
      (SystemBehavior.update s state (d.schedule.moment s)).state := by
    rw [past, htick]
    rfl
  rw [hregistry] at hlater
  refine ⟨?_, hentry⟩
  constructor
  case isActive =>
    rw [isActive_schedule, hx]
    rfl
  case turn? =>
    rw [Schedule.turn?, isActive_schedule, get?_schedule, hx]
    rfl
  case parts =>
    obtain ⟨hevents, hstate⟩ := d.update_schedule
    refine ⟨i, (d.position?_schedule s).trans hi, ?_, ?_⟩
    · rw [hevents, update, hall, hlater, htick]
      exact congrArg (· ++ _ ++ _) (congrArg Outcome.events (d.runSlots_take i)).symm
    · rw [hstate, update, hall, hlater]
      rfl

theorem entry_meaning_of_spares {c : Call κ σ} (hc : c.Spares s)
    (hu : (c.isUpdate && d.schedule.isActive s) = false) :
    ((c.meaning d).2.entry s).map Prod.fst = (d.entry s).map Prod.fst := by
  cases c with
  | add t state => exact congrArg (Option.map Prod.fst) (entry_write_of_ne _ _ (Ne.symm hc))
  | remove t =>
    simp only [Call.meaning, remove]
    split
    · rfl
    · rw [entry_write_of_ne d _ (Ne.symm hc)]
  | modify t f =>
    simp only [Call.meaning, modify]
    split
    · rfl
    · rw [entry_write_of_ne d _ (Ne.symm hc)]
  | setActive t active =>
    simp only [Call.meaning, setActive]
    split
    · rfl
    · rename_i state _ hx
      by_cases ht : s = t
      · subst t
        rw [entry_write_self, hx]
        rfl
      · rw [entry_write_of_ne d _ ht]
  | update =>
    have hidle : Idle (d.entry s) := by
      intro state hx
      rw [isActive_schedule, hx] at hu
      cases hu
    exact congrArg (Option.map Prod.fst) (entry_tickAll_of_idle hidle d.order)
  | onRegistry f => rfl

/-- A system has its turns one after the other, each with what it remembers from those before. -/
theorem turns_of_entry (hx : (d.entry s).map Prod.fst = some state) {cs : List (Call κ σ)}
    (hcs : ∀ c ∈ cs, c.Spares s) :
    ((afterCalls Call.meaning d cs).entry s).map Prod.fst =
        some (remembered state (d.schedule.turns s cs)) ∧
      ∀ (i : Nat) (z : Schedule κ σ), (d.schedule.turns s cs)[i]? = some z →
        z.Turn s (remembered state ((d.schedule.turns s cs).take i)) := by
  induction cs using List.reverseRecOn with
  | nil => exact ⟨hx, fun i z hz => by cases hz⟩
  | append_singleton cs c ih =>
    obtain ⟨hentry, hturns⟩ := ih fun c' hc' => hcs c' (List.mem_append_left _ hc')
    have hc : c.Spares s := hcs c (by simp)
    have hlast : afterCalls Call.meaning d (cs ++ [c]) =
        (c.meaning (afterCalls Call.meaning d cs)).2 := by
      simp [afterCalls]
    rw [Schedule.turns_concat, perform_calls, hlast]
    generalize afterCalls Call.meaning d cs = d' at hentry
    generalize d.schedule.turns s cs = zs at hentry hturns
    cases hu : c.isUpdate && d'.schedule.isActive s with
    | false =>
      -- The system has no turn in this call, which does not touch what it remembers either.
      rw [entry_meaning_of_spares hc hu, if_neg Bool.false_ne_true, List.append_nil]
      exact ⟨hentry, hturns⟩
    | true =>
      rw [Bool.and_eq_true] at hu
      obtain ⟨hupdate, hactive⟩ := hu
      obtain ⟨⟨state', active⟩, hx', rfl⟩ := Option.map_eq_some_iff.mp hentry
      obtain rfl : active = true := by
        rwa [isActive_schedule, hx'] at hactive
      obtain ⟨hturn, hnext⟩ := turn_of_entry hx'
      obtain rfl := Call.isUpdate_iff.mp hupdate
      rw [if_pos rfl]
      refine ⟨?_, ?_⟩
      · rw [Schedule.remembered_concat]
        exact congrArg (Option.map Prod.fst) hnext
      · intro i z hz
        rcases Nat.lt_or_ge i zs.length with hi | hi
        · rw [List.getElem?_append_left hi] at hz
          rw [List.take_append_of_le_length (Nat.le_of_lt hi)]
          exact hturns i z hz
        · obtain ⟨hi', rfl⟩ : i = zs.length ∧ d'.schedule = z := by
            rw [List.getElem?_append_right hi, List.getElem?_singleton] at hz
            split at hz
            · exact ⟨by omega, Option.some.inj hz⟩
            · cases hz
          rw [hi', List.take_left]
          exact hturn

end Roster

end TickWorld
