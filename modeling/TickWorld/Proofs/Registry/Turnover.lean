import TickWorld.Proofs.Registry.Numbers
import TickWorld.Proofs.Registry.Roll

namespace TickWorld

/-- The order in which waiting entities live again. -/
def reissue : List Entity → List Entity
  | [] => []
  | e :: es => e :: es.reverse

/-- The head of a list, as far as its entities are among the given ones, each at most once. -/
def leadingIn (live : Finset Entity) : List Entity → List Entity
  | [] => []
  | e :: es => if e ∈ live then e :: leadingIn (live.erase e) es else []

theorem moveLast_cons_append {α : Type} (x : α) (l : List α) (last : α) :
    moveLast (x :: (l ++ [last])) 0 = last :: l := by
  have hl : (x :: (l ++ [last])).getLast? = some last := by
    rw [← List.cons_append, List.getLast?_concat]
  rw [moveLast, hl]
  simp only [List.set_cons_zero]
  rw [← List.cons_append, List.dropLast_concat]

theorem reissue_cons (e : Entity) (es : List Entity) :
    reissue (e :: es) = e :: reissue (moveLast (e :: es) 0) := by
  induction es using List.reverseRecOn with
  | nil => rfl
  | append_singleton es last =>
    -- The last moves to the head, where it is taken next: it is the first of the reversed rest.
    rw [moveLast_cons_append, reissue, reissue, List.reverse_append]
    rfl

theorem length_moveLast_cons {α : Type} (x : α) (l : List α) :
    (moveLast (x :: l) 0).length = l.length := by
  induction l using List.reverseRecOn with
  | nil => rfl
  | append_singleton l last =>
    rw [moveLast_cons_append]
    simp

theorem mem_leadingIn {live : Finset Entity} {es : List Entity} {e : Entity}
    (he : e ∈ leadingIn live es) : e ∈ live := by
  induction es generalizing live with
  | nil => cases he
  | cons e' es ih =>
    rw [leadingIn] at he
    split at he
    · rename_i hlive
      rcases List.mem_cons.mp he with rfl | he
      · exact hlive
      · exact (Finset.mem_erase.mp (ih he)).2
    · cases he

theorem nodup_leadingIn (live : Finset Entity) (es : List Entity) : (leadingIn live es).Nodup := by
  induction es generalizing live with
  | nil => exact List.nodup_nil
  | cons e es ih =>
    rw [leadingIn]
    split
    · have hne : e ∉ leadingIn (live.erase e) es := by
        intro he
        exact (Finset.mem_erase.mp (mem_leadingIn he)).1 rfl
      exact List.nodup_cons.mpr ⟨hne, ih _⟩
    · exact List.nodup_nil

theorem leadingIn_eq {live : Finset Entity} {es : List Entity} (hn : es.Nodup)
    (hl : ∀ e ∈ es, e ∈ live) : leadingIn live es = es := by
  induction es generalizing live with
  | nil => rfl
  | cons e es ih =>
    obtain ⟨hne, hn⟩ := List.nodup_cons.mp hn
    rw [leadingIn, if_pos (hl e List.mem_cons_self), ih hn]
    intro e' he'
    exact Finset.mem_erase.mpr ⟨fun he => hne (he ▸ he'), hl e' (List.mem_cons_of_mem e he')⟩

variable {κ : Type} [DecidableEq κ] [ComponentKind κ]

def Action.isCreate : Action κ → Bool
  | command .create => true
  | _ => false

/-- The entities that an action destroys, in the order in which it does. -/
def Action.destroyed : Action κ → Registry κ → List Entity
  | command (.destroy e), r => if r.isLive e then [e] else []
  | command (.destroyMany es), r => leadingIn r.entities.toFinset es
  | command (.destroyWith q), r => r.matching q
  | command .reset, r => r.entities
  | _, _ => []

theorem Action.destroyed_eq_nil {a : Action κ} {r : Registry κ} (ha : a.aboutComponents = true) :
    a.destroyed r = [] := by
  cases a with
  | command c =>
    cases c with
    | destroy e => cases ha
    | destroyMany es => cases ha
    | destroyWith q => cases ha
    | reset => cases ha
    | _ => rfl
  | _ => rfl

namespace Registry

def destroyed (r : Registry κ) : List (Action κ) → List Entity
  | [] => []
  | a :: as => a.destroyed r ++ (a.run r).destroyed as

def created (r : Registry κ) : List (Action κ) → List (Except Failure Entity)
  | [] => []
  | a :: as =>
    if a.isCreate then r.create.result :: (a.run r).created as else (a.run r).created as

def upcoming (r : Registry κ) (m : Nat) : List Entity :=
  reissue r.recycled.toList ++ (List.range' r.issued m).map Entity.ofNat

variable {r r' : Registry κ} {e : Entity} {es : List Entity} {a : Action κ}

structure Retires (r : Registry κ) (es : List Entity) (r' : Registry κ) : Prop where
  nodup : es.Nodup
  live : ∀ e ∈ es, e ∈ r.entities
  mem_entities : ∀ e, e ∈ r'.entities ↔ e ∈ r.entities ∧ e ∉ es
  recycled : r'.recycled.toList = r.recycled.toList ++ es
  issued : r'.issued = r.issued

omit [DecidableEq κ] in
theorem retires_nil (he : r'.entities = r.entities)
    (hw : r'.recycled.toList = r.recycled.toList) (hi : r'.issued = r.issued) :
    r.Retires [] r' :=
  ⟨List.nodup_nil, by simp, by simp [he], by simp [hw], hi⟩

omit [DecidableEq κ] in
theorem retires_self (r : Registry κ) : r.Retires [] r := retires_nil rfl rfl rfl

omit [DecidableEq κ] in
theorem retires_pools (r : Registry κ) (t : Pools κ) : r.Retires [] { r with pools := t } :=
  retires_nil rfl rfl rfl

omit [DecidableEq κ] in
theorem recycled_foldl_retire (r : Registry κ) (es : List Entity) :
    (es.foldl retire r).recycled = es.foldl (·.insert ·) r.recycled := by
  rw [foldl_retire_eq]

theorem Valid.toList_foldl_insert (h : r.Valid) (hn : es.Nodup) (hl : ∀ e ∈ es, e ∈ r.entities) :
    (es.foldl (·.insert ·) r.recycled).toList = r.recycled.toList ++ es := by
  -- They are alive, so none of them waits yet.
  apply (h.recycled.foldl_insert (List.nodup_append.mpr ⟨h.recycled.nodup, hn, ?_⟩)).2
  intro e hw e' he' heq
  exact h.disjoint (hl e' he') (heq ▸ hw)

theorem Valid.retires_foldl (h : r.Valid) (hn : es.Nodup) (hl : ∀ e ∈ es, e ∈ r.entities) :
    r.Retires es (es.foldl Registry.retire r) where
  nodup := hn
  live := hl
  mem_entities := (h.foldl_retire hn hl).2
  recycled := by rw [recycled_foldl_retire, h.toList_foldl_insert hn hl]
  issued := issued_foldl_retire r es

theorem Valid.toFinset_retire (h : r.Valid) (e : Entity) :
    (r.retire e).entities.toFinset = r.entities.toFinset.erase e := by
  ext e'
  rw [List.mem_toFinset, h.mem_retire, Finset.mem_erase, List.mem_toFinset, and_comm]

omit [DecidableEq κ] in
theorem mem_leading : ∀ e ∈ leadingIn r.entities.toFinset es, e ∈ r.entities :=
  fun _ he => List.mem_toFinset.mp (mem_leadingIn he)

/-- The entities at the head of the list are retired, up to the first that is not alive by then. -/
theorem Valid.destroyCounting_leading (h : r.Valid) (n : Nat) (es : List Entity) :
    ∃ rest, es = leadingIn r.entities.toFinset es ++ rest ∧
      (∀ e ∈ rest.head?,
        e ∉ ((leadingIn r.entities.toFinset es).foldl Registry.retire r).entities) ∧
      r.destroyCounting n es =
        ⟨match rest.head? with
          | none => .ok (n + (leadingIn r.entities.toFinset es).length)
          | some e => .error (.deadEntity e),
          (leadingIn r.entities.toFinset es).foldl Registry.retire r, #[]⟩ := by
  induction es generalizing r n with
  | nil => exact ⟨[], rfl, by simp, rfl⟩
  | cons e es ih =>
    rw [leadingIn, Registry.destroyCounting]
    by_cases he : e ∈ r.entities
    · obtain ⟨rest, hes, hdead, hc⟩ := ih (h.retire he) (n + 1)
      rw [h.toFinset_retire] at hes hdead hc
      rw [if_pos (List.mem_toFinset.mpr he), if_pos (h.isLive_iff.mpr he)]
      refine ⟨rest, congrArg (e :: ·) hes, hdead, ?_⟩
      rw [hc, List.length_cons, List.foldl_cons, Nat.add_assoc, Nat.add_comm 1]
    · rw [if_neg (mt List.mem_toFinset.mp he), h.isLive_eq_false_iff.mpr he,
        if_neg Bool.false_ne_true]
      refine ⟨e :: es, rfl, ?_, rfl⟩
      intro e' he'
      cases he'
      exact he

theorem Valid.retires_destroyCounting (h : r.Valid) (n : Nat) (es : List Entity) :
    r.Retires (leadingIn r.entities.toFinset es) (r.destroyCounting n es).state := by
  obtain ⟨rest, -, -, hc⟩ := h.destroyCounting_leading n es
  rw [hc]
  exact h.retires_foldl (nodup_leadingIn _ es) mem_leading

theorem Valid.retires_reset (h : r.Valid) : r.Retires r.entities r.reset.state where
  nodup := h.live.nodup
  live _ he := he
  mem_entities := by simp [Registry.reset, entities, SparseSet.clear, SparseSet.toList]
  recycled := h.toList_foldl_insert h.live.nodup fun _ he => he
  issued := rfl

theorem Valid.retires_perform (h : r.Valid) (c : Command κ)
    (hc : (Action.command c).isCreate = false) :
    r.Retires ((Action.command c).destroyed r) (c.perform r).state := by
  cases hp : c.aboutComponents with
  | true =>
    obtain ⟨t, ht⟩ := exists_pools_perform hp r
    rw [ht, Action.destroyed_eq_nil (a := .command c) hp]
    exact r.retires_pools t
  | false =>
    cases c with
    | create => cases hc
    | destroy e =>
      simp only [Action.destroyed, Command.perform, Registry.destroy]
      by_cases he : e ∈ r.entities
      · rw [if_pos (h.isLive_iff.mpr he), if_pos (h.isLive_iff.mpr he)]
        exact h.retires_foldl (List.nodup_singleton e) (by simpa using he)
      · rw [h.isLive_eq_false_iff.mpr he]
        exact r.retires_self
    | destroyMany es => exact h.retires_destroyCounting 0 es
    | destroyWith q =>
      exact h.retires_foldl (h.matching_nodup q) fun _ => mem_entities_of_mem_matching
    | reset => exact h.retires_reset
    | _ => cases hp

/-- Whatever an action does beside creating, it retires the entities that it destroys and no
other. -/
theorem Valid.retires_run (h : r.Valid) (ha : a.isCreate = false) :
    r.Retires (a.destroyed r) (a.run r) := by
  cases hp : a.aboutComponents with
  | true =>
    obtain ⟨t, ht⟩ := exists_pools_run hp r
    rw [ht, Action.destroyed_eq_nil hp]
    exact r.retires_pools t
  | false =>
    cases a with
    | command c => exact h.retires_perform c ha
    | reserve n =>
      simp only [Action.run]
      split
      · rename_i hr
        obtain ⟨-, he, hw, hi, -⟩ := h.reserve hr
        exact retires_nil he hw hi
      · exact r.retires_self
    | _ => cases hp

theorem Valid.recycled_after {as : List (Action κ)} (h : r.Valid)
    (ha : ∀ a ∈ as, a.isCreate = false) :
    (r.after as).recycled.toList = r.recycled.toList ++ r.destroyed as := by
  induction as generalizing r with
  | nil => exact (List.append_nil _).symm
  | cons a as ih =>
    calc ((a.run r).after as).recycled.toList
      _ = (a.run r).recycled.toList ++ (a.run r).destroyed as :=
        ih (h.run a) fun b hb => ha b (List.mem_cons_of_mem a hb)
      _ = r.recycled.toList ++ a.destroyed r ++ (a.run r).destroyed as := by
        rw [(h.retires_run (ha a List.mem_cons_self)).recycled]
      _ = r.recycled.toList ++ r.destroyed (a :: as) := List.append_assoc ..

theorem Valid.destroyed_map_destroy (h : r.Valid) (hn : es.Nodup) (hl : ∀ e ∈ es, e ∈ r.entities) :
    r.destroyed (es.map fun e => .command (.destroy e)) = es := by
  induction es generalizing r with
  | nil => rfl
  | cons e es ih =>
    have he := h.isLive_iff.mpr (hl e List.mem_cons_self)
    have hr : (Action.command (.destroy e)).run r = r.retire e := by
      simp only [Action.run, Command.perform, Registry.destroy, if_pos he]
    rw [List.map_cons, destroyed, hr,
      ih (h.retire (hl e List.mem_cons_self)) (List.nodup_cons.mp hn).2 (h.live_retire hn hl),
      Action.destroyed, if_pos he]
    rfl

variable {as : List (Action κ)} {m : Nat}

theorem run_of_isCreate {a : Action κ} (ha : a.isCreate = true) (r : Registry κ) :
    a.run r = r.create.state := by
  cases a with
  | command c =>
    cases c with
    | create => rfl
    | _ => cases ha
  | _ => cases ha

theorem Valid.create_of_recycled (h : r.Valid) (hw : r.recycled.toList = e :: es) :
    r.create.result = .ok e ∧ r.create.state.recycled.toList = moveLast (e :: es) 0 ∧
      r.create.state.issued = r.issued := by
  have hf : r.recycled.first? = some e := by
    rw [h.recycled.shows.first?, SparseSet.listing, hw]
    rfl
  have hi : r.recycled.indexOf? e = some 0 := by
    rw [h.recycled.indexOf?_eq, hw, List.idxOf?_cons, if_pos (beq_self_eq_true e)]
  have hs : (0 : Nat) < r.recycled.dense.size := by
    rw [← Array.length_toList, ← SparseSet.toList, hw]
    exact Nat.succ_pos _
  have hm : (r.recycled.erase e).toList = moveLast (e :: es) 0 := by
    rw [SparseSet.erase, hi, ← hw]
    exact congrArg Listing.values (SparseSet.listing_eraseAt hs)
  rw [Registry.create, hf]
  exact ⟨rfl, hm, rfl⟩

theorem Valid.create_of_none (h : r.Valid) (hw : r.recycled.toList = []) :
    r.create =
      if r.issued < Entity.null.index then
        { r with issued := r.issued + 1 }.enliven (.ofNat r.issued)
      else ⟨.error .entitiesExhausted, r, #[]⟩ := by
  have hf : r.recycled.first? = none := by
    rw [h.recycled.shows.first?, SparseSet.listing, hw]
    rfl
  rw [Registry.create, hf]

theorem Valid.create_upcoming {n : Nat} (h : r.Valid) (hn : n + 1 = r.recycled.toList.length + m)
    (hi : r.issued + m ≤ Entity.null.index) :
    ∃ e m', r.create.result = .ok e ∧ r.upcoming m = e :: r.create.state.upcoming m' ∧
      n = r.create.state.recycled.toList.length + m' ∧
      r.create.state.issued + m' ≤ Entity.null.index := by
  cases hw : r.recycled.toList with
  | nil =>
    rw [hw, List.length_nil, Nat.zero_add] at hn
    subst hn
    have hc := h.create_of_none hw
    rw [if_pos (by omega)] at hc
    have hw' : r.create.state.recycled.toList = [] := by
      rw [hc]
      exact hw
    have hi' : r.create.state.issued = r.issued + 1 := by
      rw [hc]
      rfl
    refine ⟨.ofNat r.issued, n, congrArg Outcome.result hc, ?_, ?_, by omega⟩
    · rw [upcoming, upcoming, hw, hw', hi', List.range'_succ]
      rfl
    · rw [hw', List.length_nil, Nat.zero_add]
  | cons e es =>
    obtain ⟨hr, hw', hi'⟩ := h.create_of_recycled hw
    rw [hw, List.length_cons] at hn
    refine ⟨e, m, hr, ?_, ?_, by omega⟩
    · rw [upcoming, upcoming, hw, hw', hi', reissue_cons]
      rfl
    · rw [hw', length_moveLast_cons]
      omega

theorem Valid.created_eq (h : r.Valid) (hd : r.destroyed as = [])
    (hc : as.countP Action.isCreate = r.recycled.toList.length + m)
    (hi : r.issued + m ≤ Entity.null.index) : r.created as = (r.upcoming m).map .ok := by
  -- What is to come is left alone by every action but a creation, which takes the first of it.
  induction as generalizing r m with
  | nil =>
    obtain ⟨hw, rfl⟩ := Nat.add_eq_zero_iff.mp hc.symm
    rw [upcoming, List.length_eq_zero_iff.mp hw]
    rfl
  | cons a as ih =>
    rw [destroyed, List.append_eq_nil_iff] at hd
    rw [List.countP_cons] at hc
    cases ha : a.isCreate with
    | false =>
      have hr := h.retires_run ha
      rw [hd.1] at hr
      have hw : (a.run r).recycled.toList = r.recycled.toList := by
        simpa using hr.recycled
      have hu : (a.run r).upcoming m = r.upcoming m := by
        rw [upcoming, upcoming, hw, hr.issued]
      have hc' : as.countP Action.isCreate = (a.run r).recycled.toList.length + m := by
        simpa [ha, hw] using hc
      rw [created, ha, if_neg Bool.false_ne_true, ih (h.run a) hd.2 hc' (hr.issued ▸ hi), hu]
    | true =>
      obtain ⟨e, m', hr, hu, hn, hi'⟩ := h.create_upcoming (by simpa [ha] using hc) hi
      have hs := run_of_isCreate ha r
      rw [created, ha, if_pos rfl, hs, hr, hu, ih h.create (hs ▸ hd.2) hn hi']
      rfl

theorem Valid.created_after {ds : List (Action κ)} (h : r.Valid) (hw : r.recycled.toList = [])
    (hds : ∀ a ∈ ds, a.isCreate = false) (hd : (r.after ds).destroyed as = [])
    (hc : as.countP Action.isCreate = (r.destroyed ds).length) :
    (r.after ds).created as = (reissue (r.destroyed ds)).map .ok := by
  have hq := h.recycled_after hds
  rw [hw, List.nil_append] at hq
  have hv := (h.after ds).1
  have hc' : as.countP Action.isCreate = (r.after ds).recycled.toList.length + 0 := by
    rw [hq, hc]
    rfl
  have hu : (r.after ds).upcoming 0 = reissue (r.destroyed ds) := by
    rw [upcoming, hq]
    exact List.append_nil _
  rw [hv.created_eq hd hc' hv.issued_le, hu]

end Registry

/-- Creations answer the waiting entities in their order and then new numbers; what is destroyed
comes to wait last, in the order in which it was destroyed. -/
theorem numbers_reissued_in_order {r : Registry κ} (h : r.Reachable) :
    (∀ (as : List (Action κ)) (m : Nat), r.destroyed as = [] →
      as.countP Action.isCreate = r.recycled.size + m → r.issued + m ≤ Entity.null.index →
      r.created as =
        (reissue r.recycled.toList ++ (List.range' r.issued m).map Entity.ofNat).map .ok) ∧
    (∀ a : Action κ, a.isCreate = false →
      (a.run r).recycled.toList = r.recycled.toList ++ a.destroyed r ∧ (a.destroyed r).Nodup ∧
        ∀ e, e ∈ a.destroyed r ↔ e ∈ r.entities ∧ e ∉ (a.run r).entities) ∧
    ∀ (es : List Entity) (ds as : List (Action κ)), r.recycled.toList = [] → es.Nodup →
      (∀ e ∈ es, e ∈ r.entities) →
      ds = es.map (fun e => .command (.destroy e)) ∨ ds = [.command (.destroyMany es)] →
      (r.after ds).destroyed as = [] → as.countP Action.isCreate = es.length →
      (r.after ds).created as = (reissue es).map .ok := by
  have hv := h.valid
  refine ⟨?_, ?_, ?_⟩
  · intro as m hd hc hi
    exact hv.created_eq hd (by simpa [SparseSet.size, SparseSet.toList] using hc) hi
  · intro a ha
    have hr := hv.retires_run ha
    refine ⟨hr.recycled, hr.nodup, fun e => ?_⟩
    rw [hr.mem_entities]
    have hl := hr.live e
    tauto
  · intro es ds as hw hn hl hds hd hc
    have hes : r.destroyed ds = es := by
      rcases hds with rfl | rfl
      · exact hv.destroyed_map_destroy hn hl
      · exact (List.append_nil _).trans
          (leadingIn_eq hn fun e he => List.mem_toFinset.mpr (hl e he))
    have hno : ∀ a ∈ ds, a.isCreate = false := by
      rcases hds with rfl | rfl
      · intro a ha
        obtain ⟨e, -, rfl⟩ := List.mem_map.mp ha
        rfl
      · intro a ha
        cases List.mem_singleton.mp ha
        rfl
    rw [hv.created_after hw hno hd (hes ▸ hc), hes]

/-- Of four entities the first three are destroyed. Then four are created, the last of them with a
new number. -/
theorem numbers_reissued_in_order_three :
    ∃ r : Registry (Drift.Kind Empty), r.Reachable ∧ r.recycled.toList = [⟨0⟩, ⟨1⟩, ⟨2⟩] ∧
      r.created (List.replicate 4 (.command .create)) = [.ok ⟨0⟩, .ok ⟨2⟩, .ok ⟨1⟩, .ok ⟨4⟩] := by
  let r : Registry (Drift.Kind Empty) := { sizing := ⟨0, 0⟩ }
  let r' := (r.after (List.replicate 4 (.command .create))).after
    [.command (.destroyMany [⟨0⟩, ⟨1⟩, ⟨2⟩])]
  have hr : r'.Reachable := ((Registry.reachable_empty 0).after _).after _
  have hd : r'.destroyed (List.replicate 4 (.command .create)) = [] := by decide
  have hc := (numbers_reissued_in_order hr).1 _ 1 hd (by decide) (by decide)
  exact ⟨r', hr, by decide, hc.trans (by decide)⟩

end TickWorld
