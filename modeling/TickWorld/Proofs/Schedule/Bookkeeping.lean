import TickWorld.Proofs.Schedule.Roster

namespace TickWorld

open SystemKind (State kindName systemName)

theorem eraseDups_concat {α : Type} [DecidableEq α] (l : List α) (a : α) :
    (l ++ [a]).eraseDups = if a ∈ l then l.eraseDups else l.eraseDups ++ [a] := by
  rw [List.eraseDups_append, List.removeAll]
  by_cases ha : a ∈ l <;> simp [ha, List.eraseDups_cons]

variable {κ σ : Type} [ComponentKind κ] [SystemKind σ] [DecidableEq σ]

namespace Schedule

def Call.added? : Call κ σ → Option σ
  | add s _ => some s
  | _ => none

def Call.isUpdate : Call κ σ → Bool
  | update => true
  | _ => false

/-- The kinds in the order of their first additions. -/
def firstAdditions (cs : List (Call κ σ)) : List σ := (cs.filterMap Call.added?).eraseDups

/-- What a call makes of the standing of a kind, by what it answered: nothing, unless it adds the
kind or was granted to remove or to toggle it. -/
def Call.change? (s : σ) : (c : Call κ σ) → c.Answer → Option (Option Bool)
  | add t _, _ => if t = s then some (some true) else none
  | remove t, answer => if t = s ∧ Option.isSome answer then some none else none
  | setActive t active, answer =>
    match answer with
    | .ok () => if t = s then some (some active) else none
    | .error _ => none
  | _, _ => none

/-- The last change in a transcript to the standing of a kind. -/
def lastChange {δ : Type} (s : σ) (ts : List ((c : Call κ σ) × (c.Answer × Array Event) × δ)) :
    Option Bool :=
  (ts.filterMap fun t => t.1.change? s t.2.1.1).getLast?.getD none

variable [SystemBehavior κ σ]

/-- What is told of a schedule by the kinds in the order of their first additions, by the standing
of each kind and by the number of updates. -/
structure Kept (x : Schedule κ σ) (order : List σ) (standing : σ → Option Bool) (ticks : Nat) :
    Prop where
  position? : ∀ s, x.position? s = order.idxOf? s
  length : x.slots.length = order.length
  kind : ∀ (i : Nat) (y : Installed σ), x.slots[i]? = some (some y) → order[i]? = some y.kind
  unique : (x.systems.map (·.kind)).Nodup
  systemNames : x.systemNames = order.filterMap fun s => (x.get? s).map (systemName s)
  has : ∀ s, x.has s = (standing s).isSome
  isActive : ∀ s, x.isActive s = (standing s == some true)
  get? : ∀ s, (x.get? s).isSome = (standing s).isSome
  size : x.size = (order.filter x.has).length
  ticks : x.ticks = ticks
  /-- The system that an addition attached, once, is found in its slot. -/
  added : ∀ s state,
    (x.add s state).state.get? s = some (SystemBehavior.attach s state x.registry).result ∧
    (x.add s state).state.registry = (SystemBehavior.attach s state x.registry).state
  removed : ∀ s, (x.remove s).result = x.get? s
  modified : ∀ s f, (x.modify s f).get? s = (x.get? s).map f
  toggled : ∀ s active, (x.setActive s active).result =
    if x.has s then .ok () else .error (.systemNotRegistered (kindName s))
  refused : ∀ s active, x.has s = false → (x.setActive s active).state = x

end Schedule

namespace Roster

open Schedule (Call firstAdditions lastChange)

variable [SystemBehavior κ σ] (d : Roster κ σ) (s : σ)

/-- A call on a schedule does what it means for the roster. -/
theorem perform_schedule (c : Call κ σ) :
    (c.perform d.schedule).1 = (c.meaning d).1 ∧
      (c.perform d.schedule).2 = (c.meaning d).2.schedule := by
  cases c with
  | add s state =>
    obtain ⟨he, hs⟩ := d.add_schedule s state
    refine ⟨Prod.ext ?_ he, hs⟩
    simp only [Call.perform, Call.meaning, hs, get?_schedule]
    exact congrArg (Option.map Prod.fst) (entry_write_self ..)
  | remove s => exact d.remove_schedule s
  | setActive s active => exact d.setActive_schedule s active
  | modify s f =>
    obtain ⟨hg, hs⟩ := d.modify_schedule s f
    exact ⟨Prod.ext hg rfl, hs⟩
  | update =>
    obtain ⟨he, hs⟩ := d.update_schedule
    exact ⟨Prod.ext rfl he, hs⟩
  | onRegistry f => exact ⟨rfl, rfl⟩

theorem refines_schedule :
    Refines (A := fun c : Call κ σ => c.Answer × Array Event) (fun _ => True) Roster.schedule
      Call.meaning Call.perform where
  keeps _ _ _ := trivial
  answer c d _ := (d.perform_schedule c).1.symm
  observed c d _ := (d.perform_schedule c).2.symm

theorem order_meaning (c : Call κ σ) :
    (c.meaning d).2.order =
      match c.added? with
      | some s => if s ∈ d.order then d.order else d.order ++ [s]
      | none => d.order := by
  have hlisted {s : σ} {x : State s × Bool} (hx : d.entry s = some x)
      (e : Option (State s × Bool)) : (d.write s e).order = d.order :=
    if_pos (mem_order_of_entry hx)
  cases c with
  | add s state => rfl
  | remove s =>
    simp only [Call.meaning, remove, Call.added?]
    split
    · rfl
    · rename_i hx
      exact hlisted hx none
  | setActive s active =>
    simp only [Call.meaning, setActive, Call.added?]
    split
    · rfl
    · rename_i hx
      exact hlisted hx _
  | modify s f =>
    simp only [Call.meaning, modify, Call.added?]
    split
    · rfl
    · rename_i hx
      exact hlisted hx _
  | update => exact d.order_tickAll d.order
  | onRegistry f => rfl

theorem order_afterCalls (r : Registry κ) (cs : List (Call κ σ)) :
    (afterCalls Call.meaning (ofRegistry r) cs).order = firstAdditions cs := by
  induction cs using List.reverseRecOn with
  | nil => rfl
  | append_singleton cs c ih =>
    have hl : afterCalls Call.meaning (ofRegistry r) (cs ++ [c]) =
        (c.meaning (afterCalls Call.meaning (ofRegistry r) cs)).2 := by
      simp [afterCalls]
    rw [hl, order_meaning, ih, firstAdditions, firstAdditions, List.filterMap_append]
    cases hc : c.added? with
    | none => simp [hc]
    | some s =>
      simp only [List.filterMap_cons, hc, List.filterMap_nil, eraseDups_concat,
        List.mem_eraseDups]

omit [SystemBehavior κ σ] in
theorem standing_write (d : Roster κ σ) (t : σ) (e : Option (State t × Bool)) :
    (d.write t e).standing s = if t = s then e.map Prod.snd else d.standing s := by
  by_cases ht : t = s
  · subst t
    rw [if_pos rfl, standing, entry_write_self]
  · rw [if_neg ht, standing, standing, entry_write_of_ne d e (Ne.symm ht)]

omit [SystemBehavior κ σ] in
theorem standing_remove (d : Roster κ σ) (s t : σ) :
    (d.remove t).2.standing s =
      if t = s ∧ (d.remove t).1.1.isSome then none else d.standing s := by
  rw [remove]
  cases d.entry t with
  | none => simp
  | some x => simp [standing_write]

theorem standing_meaning (c : Call κ σ) :
    (c.meaning d).2.standing s = (c.change? s (c.meaning d).1.1).getD (d.standing s) := by
  cases c with
  | add t state =>
    simp only [Call.meaning, add, Call.change?, standing_write]
    split <;> rfl
  | remove t =>
    have hc : (Call.remove t).change? s ((Call.remove t).meaning d).1.1 =
        if t = s ∧ (d.remove t).1.1.isSome then some none else none := rfl
    rw [hc]
    refine (d.standing_remove s t).trans ?_
    split <;> rfl
  | setActive t active =>
    simp only [Call.meaning, setActive, Call.change?]
    cases hx : d.entry t with
    | none => rfl
    | some x =>
      simp only [standing_write]
      split <;> rfl
  | modify t f =>
    simp only [Call.meaning, modify, Call.change?]
    cases hx : d.entry t with
    | none => rfl
    | some x =>
      simp only [standing_write]
      split
      · rename_i ht
        subst ht
        simp [standing, hx]
      · rfl
  | update => exact d.standing_tickAll d.order s
  | onRegistry f => rfl

theorem standing_afterCalls (cs : List (Call κ σ)) :
    (afterCalls Call.meaning d cs).standing s =
      ((transcript Call.meaning schedule d cs).filterMap fun t =>
        t.1.change? s t.2.1.1).getLast?.getD (d.standing s) := by
  induction cs generalizing d with
  | nil => rfl
  | cons c cs ih =>
    have hs := d.standing_meaning s c
    rw [transcript, List.filterMap_cons]
    refine (ih (c.meaning d).2).trans ?_
    rw [hs]
    cases c.change? s (c.meaning d).1.1 with
    | none => rfl
    | some change => simp [List.getLast?_cons]

theorem ticks_afterCalls (cs : List (Call κ σ)) :
    (afterCalls Call.meaning d cs).ticks = d.ticks + cs.countP Call.isUpdate := by
  have hm (d : Roster κ σ) (c : Call κ σ) :
      (c.meaning d).2.ticks = d.ticks + if c.isUpdate then 1 else 0 := by
    cases c with
    | add s state => rfl
    | remove s =>
      simp only [Call.meaning, remove]
      split <;> rfl
    | setActive s active =>
      simp only [Call.meaning, setActive]
      split <;> rfl
    | modify s f =>
      simp only [Call.meaning, modify]
      split <;> rfl
    | update => exact congrArg (· + 1) (d.ticks_tickAll d.order)
    | onRegistry f => rfl
  induction cs generalizing d with
  | nil => rfl
  | cons c cs ih =>
    rw [List.countP_cons]
    refine (ih (c.meaning d).2).trans ?_
    rw [hm]
    omega

omit [SystemBehavior κ σ] in
theorem size_schedule : d.schedule.size = (d.order.filter d.schedule.has).length := by
  have hf : (fun s => (d.slot s).isSome) = d.schedule.has := by
    funext s
    rw [has_schedule, slot, Option.isSome_map]
  rw [Schedule.size, systems_schedule, List.length_filterMap_eq_countP, hf,
    List.countP_eq_length_filter]

omit [SystemBehavior κ σ] in
theorem map_kind_systems :
    d.schedule.systems.map (·.kind) = d.order.filter d.schedule.has := by
  rw [systems_schedule, List.map_filterMap, ← List.filterMap_eq_filter]
  refine List.filterMap_congr fun s _ => ?_
  rw [slot, Option.guard, has_schedule]
  cases d.entry s <;> rfl

theorem kept (d : Roster κ σ) : d.schedule.Kept d.order d.standing d.ticks where
  position? := d.position?_schedule
  length := by simp [schedule]
  kind i y hy := by
    have hy' : (d.order.map d.slot)[i]? = some (some y) := hy
    rw [List.getElem?_map, Option.map_eq_some_iff] at hy'
    obtain ⟨s, hs, hy'⟩ := hy'
    rw [slot, Option.map_eq_some_iff] at hy'
    obtain ⟨x, -, rfl⟩ := hy'
    exact hs
  unique := by
    rw [map_kind_systems]
    exact List.Nodup.filter _ d.nodup
  systemNames := by
    rw [Schedule.systemNames, systems_schedule, List.map_filterMap]
    refine List.filterMap_congr fun s _ => ?_
    rw [get?_schedule, slot]
    cases d.entry s <;> rfl
  has s := by
    rw [has_schedule, standing, Option.isSome_map]
  isActive s := by
    rw [isActive_schedule, standing]
    cases d.entry s with
    | none => rfl
    | some x => cases hx : x.2 <;> simp [hx]
  get? s := by
    rw [get?_schedule, standing, Option.isSome_map, Option.isSome_map]
  size := d.size_schedule
  ticks := rfl
  added s state := by
    obtain ⟨-, hs⟩ := d.add_schedule s state
    rw [hs]
    refine ⟨?_, rfl⟩
    rw [get?_schedule]
    exact congrArg (Option.map Prod.fst) (entry_write_self ..)
  removed s := by
    have hr := congrArg Prod.fst (d.remove_schedule s).1
    simp only at hr
    rw [hr, get?_schedule, remove]
    cases d.entry s <;> rfl
  modified s f := by
    rw [(d.modify_schedule s f).2, get?_schedule, get?_schedule, modify]
    cases hx : d.entry s with
    | none => simp [hx]
    | some x => simp [entry_write_self]
  toggled s active := by
    have hr := congrArg Prod.fst (d.setActive_schedule s active).1
    simp only at hr
    rw [hr, has_schedule, setActive]
    cases d.entry s <;> rfl
  refused s active hs := by
    rw [has_schedule, Option.isSome_eq_false_iff, Option.isNone_iff_eq_none] at hs
    rw [(d.setActive_schedule s active).2, setActive, hs]

end Roster

/-- Whatever calls a schedule has received, its answers, events and contents are those of its
roster, and its books follow from the calls: from the additions and from the last change to each
kind that was granted. -/
theorem schedule_keeps_books [SystemBehavior κ σ] (r : Registry κ) (cs : List (Schedule.Call κ σ)) :
    transcript Schedule.Call.perform id (Schedule.ofRegistry r) cs =
        transcript Schedule.Call.meaning Roster.schedule (Roster.ofRegistry r) cs ∧
      (afterCalls Schedule.Call.perform (Schedule.ofRegistry r) cs).Kept
        (Schedule.firstAdditions cs)
        (fun s => Schedule.lastChange s
          (transcript Schedule.Call.perform id (Schedule.ofRegistry r) cs))
        (cs.countP Schedule.Call.isUpdate) := by
  have hd : (Roster.ofRegistry r : Roster κ σ).schedule = Schedule.ofRegistry r := rfl
  have ht := Roster.refines_schedule.transcript_eq (s := Roster.ofRegistry r) trivial cs
  obtain ⟨-, ha⟩ := Roster.refines_schedule.after (s := Roster.ofRegistry r) trivial cs
  rw [hd] at ht ha
  refine ⟨ht.symm, ?_⟩
  have hk := (afterCalls Schedule.Call.meaning (Roster.ofRegistry r) cs).kept
  rw [ha, Roster.order_afterCalls, Roster.ticks_afterCalls] at hk
  have hs : (afterCalls Schedule.Call.meaning (Roster.ofRegistry r) cs).standing =
      fun s => Schedule.lastChange s
        (transcript Schedule.Call.perform id (Schedule.ofRegistry r) cs) := by
    funext s
    rw [Roster.standing_afterCalls, ht]
    rfl
  have h0 : (Roster.ofRegistry r : Roster κ σ).ticks = 0 := rfl
  rw [hs, h0, Nat.zero_add] at hk
  exact hk

end TickWorld
