import TickWorld.Drift.Behavior
import TickWorld.Proofs.Schedule.Bookkeeping

namespace TickWorld

open SystemKind (State)

variable {κ σ : Type} [ComponentKind κ] [SystemKind σ]

attribute [ext] Roster

namespace Schedule

def Call.named? : Call κ σ → Option σ
  | add s _ => some s
  | remove s => some s
  | setActive s _ => some s
  | modify s _ => some s
  | update => none
  | onRegistry _ => none

variable [DecidableEq σ]

/-- Two schedules differ in the slot of one kind at most. -/
structure SameBut (s : σ) (x y : Schedule κ σ) : Prop where
  registry : x.registry = y.registry
  ticks : x.ticks = y.ticks
  position? : ∀ t, x.position? t = y.position? t
  installed? : ∀ t, t ≠ s → x.installed? t = y.installed? t

variable [SystemBehavior κ σ]

def answers (x : Schedule κ σ) :
    List (Call κ σ) → List ((c : Call κ σ) × (c.Answer × Array Event))
  | [] => []
  | c :: cs => ⟨c, (c.perform x).1⟩ :: (c.perform x).2.answers cs

/-- To suspend the system of a kind for a stretch of calls is to take it out before them and to put
it back, as it was handed out, after them. -/
structure Suspends (x : Schedule κ σ) (s : σ) (stretch : List (Call κ σ)) (state : State s) :
    Prop where
  get? : x.get? s = some state
  deactivate : (x.deactivate s).result = .ok ()
  remove : (x.remove s).result = some state
  /-- The other systems and the registry are the same after every call of the stretch. -/
  sameBut : ∀ part, part <+: stretch →
    SameBut s (afterCalls Call.perform (x.deactivate s).state part)
      (afterCalls Call.perform (x.remove s).state part)
  answers : (x.deactivate s).state.answers stretch = (x.remove s).state.answers stretch
  frozen : ∀ part, part <+: stretch →
    (afterCalls Call.perform (x.deactivate s).state part).get? s = some state
  activate : ((afterCalls Call.perform (x.deactivate s).state stretch).activate s).result = .ok ()
  restored : ((afterCalls Call.perform (x.deactivate s).state stretch).activate s).state =
    ((afterCalls Call.perform (x.remove s).state stretch).add s state).state
  position? :
    ((afterCalls Call.perform (x.deactivate s).state stretch).activate s).state.position? s =
      x.position? s

end Schedule

namespace Roster

open Schedule (Call)

variable [DecidableEq σ] {d : Roster κ σ} {s t : σ} {state : State s} {active : Bool}
  {e : Option (State s × Bool)} {cs : List (Schedule.Call κ σ)}

theorem write_write (d : Roster κ σ) (s : σ) (e e' : Option (State s × Bool)) :
    (d.write s e).write s e' = d.write s e' := by
  apply Roster.ext
  · rfl
  · simp only [write]
    by_cases hs : s ∈ d.order <;> simp [hs]
  · exact Function.update_idem (a := s) e e' d.entry
  · rfl

theorem write_comm (hs : s ∈ d.order) (ht : t ≠ s) (e : Option (State s × Bool))
    (e' : Option (State t × Bool)) : (d.write s e).write t e' = (d.write t e').write s e := by
  apply Roster.ext
  · rfl
  · simp only [write]
    by_cases hm : t ∈ d.order <;> simp [hs, hm]
  · exact Function.update_comm ht.symm e e' d.entry
  · rfl

theorem order_write (hs : s ∈ d.order) (e : Option (State s × Bool)) :
    (d.write s e).order = d.order := if_pos hs

/-- The kind is listed, and its slot is empty. -/
structure Vacant (d : Roster κ σ) (s : σ) : Prop where
  listed : s ∈ d.order
  entry : d.entry s = none

theorem vacant_write (hs : s ∈ d.order) : (d.write s none).Vacant s where
  listed := by rwa [order_write hs]
  entry := entry_write_self d s none

omit [DecidableEq σ] in
theorem Vacant.of_standing {d' : Roster κ σ} (h : d.Vacant s) (ho : s ∈ d'.order)
    (hs : d'.standing s = d.standing s) : d'.Vacant s where
  listed := ho
  entry := by
    rw [standing, standing, h.entry, Option.map_none, Option.map_eq_none_iff] at hs
    exact hs

def Idle (e : Option (State s × Bool)) : Prop := ∀ state, e ≠ some (state, true)

omit [DecidableEq σ] in
theorem idle_suspended (state : State s) : Idle (some (state, false)) := by
  intro state' he
  cases he

variable [SystemBehavior κ σ]

theorem tick_of_idle (he : Idle (d.entry s)) : d.tick s = (#[], d) := by
  rw [tick]
  split
  · rename_i state hx
    exact absurd hx (he state)
  · rfl

theorem Vacant.tick (h : d.Vacant s) (t : σ) : (d.tick t).2.Vacant s :=
  h.of_standing (by rw [order_tick]; exact h.listed) (d.standing_tick t s)

theorem Vacant.tick_write (h : d.Vacant s) (he : Idle e) (t : σ) :
    (d.write s e).tick t = ((d.tick t).1, (d.tick t).2.write s e) := by
  by_cases ht : t = s
  · subst t
    have hidle : Idle ((d.write s e).entry s) := by
      rw [entry_write_self]
      exact he
    have hnone : Idle (d.entry s) := by
      intro state hx
      rw [h.entry] at hx
      cases hx
    rw [tick_of_idle hidle, tick_of_idle hnone]
  · rw [Roster.tick, Roster.tick, entry_write_of_ne d e ht]
    split
    · rename_i state _
      let ran := SystemBehavior.update t state d.registry
      have hw := write_comm (d := d.withRegistry ran.state) h.listed ht e (some (ran.result, true))
      exact Prod.ext rfl hw
    · rfl

theorem Vacant.tickAll_write (h : d.Vacant s) (he : Idle e) (l : List σ) :
    (d.write s e).tickAll l = ((d.tickAll l).1, (d.tickAll l).2.write s e) := by
  induction l generalizing d with
  | nil => rfl
  | cons t l ih => rw [tickAll, h.tick_write he, ih (h.tick t), tickAll]

theorem Vacant.add_write (h : d.Vacant s) (ht : t ≠ s) (e : Option (State s × Bool))
    (state : State t) :
    (d.write s e).add t state = ((d.add t state).1, (d.add t state).2.write s e) := by
  have ho := order_write h.listed e
  have hentry := entry_write_of_ne d e ht
  let attached := SystemBehavior.attach t state d.registry
  have hw := write_comm (d := d.withRegistry attached.state) h.listed ht e
    (some (attached.result, true))
  refine Prod.ext ?_ hw
  simp only [add, ho, hentry]
  rfl

omit [SystemBehavior κ σ] in
theorem Vacant.remove_write (h : d.Vacant s) (ht : t ≠ s) (e : Option (State s × Bool)) :
    (d.write s e).remove t = ((d.remove t).1, (d.remove t).2.write s e) := by
  rw [remove, remove, entry_write_of_ne d e ht, order_write h.listed]
  split
  · rfl
  · exact Prod.ext rfl (write_comm h.listed ht e none)

omit [SystemBehavior κ σ] in
theorem Vacant.setActive_write (h : d.Vacant s) (ht : t ≠ s) (e : Option (State s × Bool))
    (active : Bool) :
    (d.write s e).setActive t active =
      ((d.setActive t active).1, (d.setActive t active).2.write s e) := by
  rw [setActive, setActive, entry_write_of_ne d e ht]
  split
  · rfl
  · exact Prod.ext rfl (write_comm h.listed ht e _)

omit [SystemBehavior κ σ] in
theorem Vacant.modify_write (h : d.Vacant s) (ht : t ≠ s) (e : Option (State s × Bool))
    (f : State t → State t) :
    (d.write s e).modify t f = ((d.modify t f).1, (d.modify t f).2.write s e) := by
  rw [modify, modify, entry_write_of_ne d e ht]
  split
  · rfl
  · exact Prod.ext rfl (write_comm h.listed ht e _)

theorem Vacant.update_write (h : d.Vacant s) (he : Idle e) :
    (d.write s e).update = (d.update.1, d.update.2.write s e) := by
  rw [update, order_write h.listed, h.tickAll_write he, update]
  rfl

/-- A call that does not name a kind answers the same and does the same whether its slot is empty or
holds a system that is not active. -/
theorem Vacant.meaning_write (h : d.Vacant s) (he : Idle e) {c : Call κ σ}
    (hc : c.named? ≠ some s) :
    c.meaning (d.write s e) = ((c.meaning d).1, (c.meaning d).2.write s e) := by
  have hne {t : σ} (ht : some t ≠ some s) : t ≠ s := fun hs => ht (congrArg some hs)
  cases c with
  | add t state => exact h.add_write (hne hc) e state
  | remove t => exact h.remove_write (hne hc) e
  | setActive t active => exact h.setActive_write (hne hc) e active
  | modify t f =>
    simp only [Call.meaning, h.modify_write (hne hc) e f]
  | update =>
    simp only [Call.meaning, h.update_write he]
  | onRegistry f => rfl

theorem Vacant.meaning (h : d.Vacant s) {c : Call κ σ} (hc : c.named? ≠ some s) :
    (c.meaning d).2.Vacant s := by
  have hchange (answer : c.Answer) : c.change? s answer = none := by
    cases c with
    | add t state => simp_all [Call.named?, Call.change?]
    | remove t => simp_all [Call.named?, Call.change?]
    | setActive t active => cases answer <;> simp_all [Call.named?, Call.change?]
    | modify t f => rfl
    | update => rfl
    | onRegistry f => rfl
  apply h.of_standing
  · rw [order_meaning]
    split
    · split
      · exact h.listed
      · exact List.mem_append_left _ h.listed
    · exact h.listed
  · rw [d.standing_meaning s c, hchange, Option.getD_none]

theorem idxOf?_meaning (hs : s ∈ d.order) (c : Call κ σ) :
    (c.meaning d).2.order.idxOf? s = d.order.idxOf? s := by
  rw [order_meaning]
  split
  · split
    · rfl
    · -- A new kind is listed after all others.
      obtain ⟨i, hi⟩ := Option.isSome_iff_exists.mp (List.isSome_idxOf?.mpr hs)
      rw [hi, List.idxOf?, List.findIdx?_append]
      rw [List.idxOf?] at hi
      rw [hi]
      rfl
  · rfl

theorem Vacant.idxOf?_afterCalls (h : d.Vacant s)
    (hcs : ∀ c ∈ cs, c.named? ≠ some s) :
    (afterCalls Call.meaning d cs).order.idxOf? s = d.order.idxOf? s := by
  induction cs generalizing d with
  | nil => rfl
  | cons c cs ih =>
    have hrest := ih (h.meaning (hcs c (by simp))) fun c hm => hcs c (by simp [hm])
    exact hrest.trans (idxOf?_meaning h.listed c)

theorem Vacant.afterCalls_write (h : d.Vacant s) (he : Idle e)
    (hcs : ∀ c ∈ cs, c.named? ≠ some s) :
    (afterCalls Call.meaning d cs).Vacant s ∧
      afterCalls Call.meaning (d.write s e) cs = (afterCalls Call.meaning d cs).write s e := by
  induction cs generalizing d with
  | nil => exact ⟨h, rfl⟩
  | cons c cs ih =>
    have hc := hcs c (by simp)
    obtain ⟨hv, hw⟩ := ih (h.meaning hc) fun c hm => hcs c (by simp [hm])
    refine ⟨hv, ?_⟩
    calc afterCalls Call.meaning (d.write s e) (c :: cs)
      _ = afterCalls Call.meaning (c.meaning (d.write s e)).2 cs := rfl
      _ = afterCalls Call.meaning ((c.meaning d).2.write s e) cs := by rw [h.meaning_write he hc]
      _ = (afterCalls Call.meaning d (c :: cs)).write s e := hw

theorem Vacant.answers_write (h : d.Vacant s) (he : Idle e)
    (hcs : ∀ c ∈ cs, c.named? ≠ some s) :
    (d.write s e).schedule.answers cs = d.schedule.answers cs := by
  induction cs generalizing d with
  | nil => rfl
  | cons c cs ih =>
    have hc := hcs c (by simp)
    have hrest := ih (h.meaning hc) fun c hm => hcs c (by simp [hm])
    obtain ⟨ha, hs⟩ := (d.write s e).perform_schedule c
    obtain ⟨ha', hs'⟩ := d.perform_schedule c
    rw [h.meaning_write he hc] at ha hs
    rw [Schedule.answers, Schedule.answers, ha, hs, ha', hs', hrest]

omit [SystemBehavior κ σ] in
theorem Vacant.sameBut_write (h : d.Vacant s) (e : Option (State s × Bool)) :
    (d.write s e).schedule.SameBut s d.schedule where
  registry := rfl
  ticks := rfl
  position? t := by rw [position?_schedule, position?_schedule, order_write h.listed]
  installed? t ht := by
    rw [installed?_schedule, installed?_schedule, slot_write_of_ne d e ht]

omit [SystemBehavior κ σ] in
theorem get?_write (d : Roster κ σ) (s : σ) (e : Option (State s × Bool)) :
    (d.write s e).schedule.get? s = e.map Prod.fst := by
  rw [get?_schedule, entry_write_self]

omit [SystemBehavior κ σ] in
theorem setActive_of_entry (hx : d.entry s = some (state, active)) (b : Bool) :
    (d.schedule.setActive s b).result = .ok () ∧
      (d.schedule.setActive s b).state = (d.write s (some (state, b))).schedule := by
  obtain ⟨hr, hs⟩ := d.setActive_schedule s b
  rw [setActive, hx] at hr hs
  exact ⟨congrArg Prod.fst hr, hs⟩

omit [SystemBehavior κ σ] in
theorem remove_of_entry (hx : d.entry s = some (state, active)) :
    (d.schedule.remove s).result = some state ∧
      (d.schedule.remove s).state = (d.write s none).schedule := by
  obtain ⟨hr, hs⟩ := d.remove_schedule s
  rw [remove, hx] at hr hs
  exact ⟨congrArg Prod.fst hr, hs⟩

theorem perform_calls (d : Roster κ σ) (cs : List (Call κ σ)) :
    afterCalls Call.perform d.schedule cs = (afterCalls Call.meaning d cs).schedule :=
  (refines_schedule.after (s := d) trivial cs).2.symm

theorem remove_calls (hx : d.entry s = some (state, active)) (cs : List (Call κ σ)) :
    afterCalls Call.perform (d.schedule.remove s).state cs =
      (afterCalls Call.meaning (d.write s none) cs).schedule := by
  rw [(remove_of_entry hx).2, perform_calls]

omit [SystemBehavior κ σ] in
theorem deactivate_eq (hx : d.entry s = some (state, active)) :
    (d.schedule.deactivate s).state =
      ((d.write s none).write s (some (state, false))).schedule := by
  rw [write_write]
  exact (setActive_of_entry hx false).2

theorem deactivate_calls (hx : d.entry s = some (state, active))
    (hcs : ∀ c ∈ cs, c.named? ≠ some s) :
    afterCalls Call.perform (d.schedule.deactivate s).state cs =
      ((afterCalls Call.meaning (d.write s none) cs).write s (some (state, false))).schedule := by
  have hv := vacant_write (mem_order_of_entry hx)
  rw [deactivate_eq hx, perform_calls, (hv.afterCalls_write (idle_suspended state) hcs).2]

omit [SystemBehavior κ σ] in
theorem activate_write (d : Roster κ σ) (s : σ) (state : State s) :
    ((d.write s (some (state, false))).schedule.activate s).result = .ok () ∧
      ((d.write s (some (state, false))).schedule.activate s).state =
        (d.write s (some (state, true))).schedule := by
  obtain ⟨hr, hs⟩ := setActive_of_entry (entry_write_self d s (some (state, false))) true
  rw [write_write] at hs
  exact ⟨hr, hs⟩

theorem add_of_inert (d : Roster κ σ)
    (hattach : ∀ r : Registry κ, (SystemBehavior.attach s state r).result = state ∧
      (SystemBehavior.attach s state r).state = r) :
    (d.schedule.add s state).state = (d.write s (some (state, true))).schedule := by
  obtain ⟨hresult, hstate⟩ := hattach d.registry
  rw [(d.add_schedule s state).2, add]
  simp only [hresult, hstate]
  rfl

theorem suspends (hx : d.entry s = some (state, active))
    (hattach : ∀ r : Registry κ, (SystemBehavior.attach s state r).result = state ∧
      (SystemBehavior.attach s state r).state = r)
    (hcs : ∀ c ∈ cs, c.named? ≠ some s) : d.schedule.Suspends s cs state := by
  have hs := mem_order_of_entry hx
  have hv : (d.write s none).Vacant s := vacant_write hs
  have hidle := idle_suspended state
  have hpart {part : List (Call κ σ)} (hp : part <+: cs) : ∀ c ∈ part, c.named? ≠ some s :=
    fun c hc => hcs c (hp.subset hc)
  obtain ⟨hactivate, hrestored⟩ :=
    (afterCalls Call.meaning (d.write s none) cs).activate_write s state
  constructor
  case get? =>
    rw [get?_schedule, hx]
    rfl
  case deactivate => exact (setActive_of_entry hx false).1
  case remove => exact (remove_of_entry hx).1
  case sameBut =>
    intro part hp
    rw [deactivate_calls hx (hpart hp), remove_calls hx]
    exact (hv.afterCalls_write hidle (hpart hp)).1.sameBut_write _
  case answers =>
    rw [deactivate_eq hx, (remove_of_entry hx).2]
    exact hv.answers_write hidle hcs
  case frozen =>
    intro part hp
    rw [deactivate_calls hx (hpart hp), get?_write]
    rfl
  case activate =>
    rw [deactivate_calls hx hcs]
    exact hactivate
  case restored => rw [deactivate_calls hx hcs, remove_calls hx, hrestored, add_of_inert _ hattach]
  case position? =>
    have hlast := (hv.afterCalls_write hidle hcs).1
    rw [deactivate_calls hx hcs, hrestored, position?_schedule, position?_schedule,
      order_write hlast.listed, hv.idxOf?_afterCalls hcs, order_write hs]

end Roster

/-- Suspending a system whose kind does nothing when it is added is taking it out and putting it
back, whatever calls came before and whatever calls that do not name its kind come in between. -/
theorem suspending_is_removing [DecidableEq σ] [SystemBehavior κ σ] (r : Registry κ)
    (before stretch : List (Schedule.Call κ σ)) (s : σ)
    (hs : (afterCalls Schedule.Call.perform (Schedule.ofRegistry r) before).has s = true)
    (hattach : ∀ (state : State s) (r : Registry κ),
      (SystemBehavior.attach s state r).result = state ∧
        (SystemBehavior.attach s state r).state = r)
    (hstretch : ∀ c ∈ stretch, c.named? ≠ some s) :
    ∃ state, (afterCalls Schedule.Call.perform (Schedule.ofRegistry r) before).Suspends s stretch
      state := by
  have hd : afterCalls Schedule.Call.perform (Schedule.ofRegistry r) before =
      (afterCalls Schedule.Call.meaning (Roster.ofRegistry r) before).schedule :=
    (Roster.ofRegistry r).perform_calls before
  rw [hd, Roster.has_schedule, Option.isSome_iff_exists] at hs
  obtain ⟨⟨state, active⟩, hx⟩ := hs
  rw [hd]
  exact ⟨state, Roster.suspends hx (hattach state) hstretch⟩

/-- An entity with one tick to live outlives two updates while decay is suspended. -/
theorem suspending_is_removing_decay :
    ∃ (x : Schedule (Drift.Kind Empty) (Drift.Role Empty)) (stretch : List (Schedule.Call _ _)),
      stretch = [.update, .remove .manaRegen, .update] ∧ x.isActive .decay = true ∧
      (∃ state, x.Suspends .decay stretch state) ∧
      (afterCalls Schedule.Call.perform (x.deactivate .decay).state stretch).registry.entities =
        [⟨0⟩] := by
  let r₀ : Registry (Drift.Kind Empty) := { sizing := ⟨0, 0⟩ }
  let r := (r₀.create.state.assign ⟨0⟩ .lifetime (Drift.Lifetime.mk 1)).state
  let before : List (Schedule.Call (Drift.Kind Empty) (Drift.Role Empty)) :=
    [.add .decay (Drift.Decay.mk #[] 0), .add .manaRegen ()]
  let stretch : List (Schedule.Call (Drift.Kind Empty) (Drift.Role Empty)) :=
    [.update, .remove .manaRegen, .update]
  have hactive : (afterCalls Schedule.Call.perform (Schedule.ofRegistry r) before).isActive .decay =
      true := by decide +kernel
  have hlive : (afterCalls Schedule.Call.perform ((afterCalls Schedule.Call.perform
      (Schedule.ofRegistry r) before).deactivate .decay).state stretch).registry.entities =
      [⟨0⟩] := by decide +kernel
  have hstretch : ∀ c ∈ stretch, c.named? ≠ some .decay := by decide
  have hs := suspending_is_removing r before stretch .decay (by decide +kernel)
    (fun _ _ => ⟨rfl, rfl⟩) hstretch
  exact ⟨_, stretch, rfl, hactive, hs, hlive⟩

end TickWorld
