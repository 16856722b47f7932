import TickWorld.Proofs.Registry.Answer
import TickWorld.Proofs.Registry.Invariant
import TickWorld.Proofs.Storage.Twin

namespace TickWorld

open ComponentKind (name)

variable {κ : Type} [DecidableEq κ] [ComponentKind κ]

/-- What is observed of a registry: who lives and who waits, in their orders, what the pools hold in
storage order, and all capacities. -/
structure View (κ : Type) [ComponentKind κ] where
  live : Listing Entity
  recycled : Listing Entity
  issued : Nat
  pools : List ((k : κ) × PairList k)
  sizing : Sizing

namespace Registry

def view (r : Registry κ) : View κ :=
  ⟨r.live.listing, r.recycled.listing, r.issued, r.pools.sheets, r.sizing⟩

/-- Two registries that differ in the stale parts of index arrays at most. -/
structure Twin (r r' : Registry κ) : Prop where
  live : r.live.Twin r'.live
  recycled : r.recycled.Twin r'.recycled
  issued : r.issued = r'.issued
  pools : r.pools.Twin r'.pools
  sizing : r.sizing = r'.sizing

variable {r r' : Registry κ} {t t' : Pools κ} {e : Entity} {k : κ} {q : List κ}

namespace Twin

theorem view (h : r.Twin r') : r.view = r'.view := by
  rw [Registry.view, Registry.view, h.live.listing, h.recycled.listing, h.issued, h.pools.sheets,
    h.sizing]

theorem withPools (h : r.Twin r') (ht : t.Twin t') :
    ({ r with pools := t } : Registry κ).Twin { r' with pools := t' } :=
  ⟨h.live, h.recycled, h.issued, ht, h.sizing⟩

theorem isLive (h : r.Twin r') (e : Entity) : r.isLive e = r'.isLive e := h.live.has e

theorem entities (h : r.Twin r') : r.entities = r'.entities := h.live.toList

theorem matching (h : r.Twin r') (q : List κ) : r.matching q = r'.matching q := by
  rw [Registry.matching, Registry.matching, h.entities, h.pools.ownsAll]

theorem get? (h : r.Twin r') (e : Entity) (k : κ) : r.get? e k = r'.get? e k := by
  have hv : (r.pools.get? k).bind (·.get? e) = (r'.pools.get? k).bind (·.get? e) :=
    h.pools.value? e k
  rw [Registry.get?, Registry.get?, h.isLive, hv]

theorem getMany (h : r.Twin r') (e : Entity) (q : List κ) : r.getMany e q = r'.getMany e q := by
  rw [Registry.getMany, Registry.getMany, h.isLive, h.pools.claim, h.pools.fetch]

theorem enliven (h : r.Twin r') (e : Entity) : Outcome.Agree Twin (r.enliven e) (r'.enliven e) where
  result := rfl
  state := ⟨h.live.insert e, h.recycled, h.issued, h.pools.eraseEntity e, h.sizing⟩
  events := by simp only [Registry.enliven, h.live.capacity, h.pools.countOwned]

theorem create (h : r.Twin r') : Outcome.Agree Twin r.create r'.create := by
  rw [Registry.create, Registry.create, ← h.recycled.first?, ← h.issued]
  cases r.recycled.first? with
  | some e =>
    have ht : ({ r with recycled := r.recycled.erase e } : Registry κ).Twin
        { r' with recycled := r'.recycled.erase e, issued := r.issued } :=
      ⟨h.live, h.recycled.erase e, rfl, h.pools, h.sizing⟩
    exact ht.enliven e
  | none =>
    have ht : ({ r with issued := r.issued + 1 } : Registry κ).Twin
        { r' with issued := r.issued + 1 } :=
      ⟨h.live, h.recycled, rfl, h.pools, h.sizing⟩
    simp only
    split
    · exact ht.enliven _
    · exact ⟨rfl, h, rfl⟩

theorem retire (h : r.Twin r') (e : Entity) : (r.retire e).Twin (r'.retire e) :=
  ⟨h.live.erase e, h.recycled.insert e, h.issued, h.pools.eraseEntity e, h.sizing⟩

theorem foldl_retire (h : r.Twin r') (es : List Entity) :
    (es.foldl Registry.retire r).Twin (es.foldl Registry.retire r') := by
  induction es generalizing r r' with
  | nil => exact h
  | cons e es ih => exact ih (h.retire e)

theorem destroy (h : r.Twin r') (e : Entity) : Outcome.Agree Twin (r.destroy e) (r'.destroy e) := by
  rw [Registry.destroy, Registry.destroy, ← h.isLive]
  split
  · exact ⟨rfl, h.retire e, rfl⟩
  · exact ⟨rfl, h, rfl⟩

theorem destroyCounting (h : r.Twin r') (n : Nat) (es : List Entity) :
    Outcome.Agree Twin (r.destroyCounting n es) (r'.destroyCounting n es) := by
  induction es generalizing r r' n with
  | nil => exact ⟨rfl, h, rfl⟩
  | cons e es ih =>
    rw [Registry.destroyCounting, Registry.destroyCounting, ← h.isLive]
    split
    · exact ih (h.retire e) _
    · exact ⟨rfl, h, rfl⟩

theorem destroyWith (h : r.Twin r') (q : List κ) :
    Outcome.Agree Twin (r.destroyWith q) (r'.destroyWith q) := by
  simp only [Registry.destroyWith, ← h.matching]
  exact ⟨rfl, h.foldl_retire _, rfl⟩

theorem reset (h : r.Twin r') : Outcome.Agree Twin r.reset r'.reset where
  result := rfl
  state := by
    simp only [Registry.reset, ← h.live.toList]
    exact ⟨h.live.clear, h.recycled.foldl_insert _, h.issued, h.pools.clear, h.sizing⟩
  events := by simp only [Registry.reset, h.live.size]

theorem updateOrCreate (h : r.Twin r') (k : κ) {ρ : Type} {op : Pool k → Except Failure ρ × Pool k}
    (hop : ∀ {p p' : Pool k}, p.Twin p' → (op p).1 = (op p').1 ∧ (op p).2.Twin (op p').2) :
    Outcome.Agree Twin
      ((r.pools.updateOrCreate k r.sizing.poolCapacity op).mapState fun t => { r with pools := t })
      ((r'.pools.updateOrCreate k r'.sizing.poolCapacity op).mapState
        fun t => { r' with pools := t }) := by
  have ho := h.pools.updateOrCreate k r.sizing.poolCapacity hop
  have hz : r'.pools.updateOrCreate k r'.sizing.poolCapacity op =
      r'.pools.updateOrCreate k r.sizing.poolCapacity op := by
    rw [h.sizing]
  rw [hz]
  exact ⟨ho.result, h.withPools ho.state, ho.events⟩

theorem assign (h : r.Twin r') (e : Entity) (k : κ) (value : Value k) :
    Outcome.Agree Twin (r.assign e k value) (r'.assign e k value) := by
  rw [assign_eq, assign_eq, ← h.isLive]
  split
  · exact h.updateOrCreate k fun hp => hp.call (.assign e value)
  · exact ⟨rfl, h, rfl⟩

theorem assignOrReplace (h : r.Twin r') (e : Entity) (k : κ) (value : Value k) :
    Outcome.Agree Twin (r.assignOrReplace e k value) (r'.assignOrReplace e k value) := by
  rw [assignOrReplace_eq, assignOrReplace_eq, ← h.isLive]
  split
  · exact h.updateOrCreate k fun hp => hp.call (.assignOrReplace e value)
  · exact ⟨rfl, h, rfl⟩

theorem replace (h : r.Twin r') (e : Entity) (k : κ) (value : Value k) :
    Outcome.Agree Twin (r.replace e k value) (r'.replace e k value) := by
  rw [replace_eq, replace_eq, ← h.isLive]
  split
  · obtain ⟨ha, ht⟩ := h.pools.update (.error (.unregisteredComponent (name k)))
      fun hp => hp.call (.replace e value)
    exact ⟨ha, h.withPools ht, rfl⟩
  · exact ⟨rfl, h, rfl⟩

theorem reservePool (h : r.Twin r') (k : κ) (n : Nat) :
    Outcome.Agree Twin (r.reservePool k n) (r'.reservePool k n) :=
  h.updateOrCreate k fun hp => hp.call (.reserve n)

theorem modify (h : r.Twin r') (e : Entity) (k : κ) (f : Value k → Value k) :
    (r.modify e k f).Twin (r'.modify e k f) := by
  rw [Registry.modify, Registry.modify, ← h.isLive]
  split
  · exact h.withPools (h.pools.write k e f)
  · exact h

theorem delete (h : r.Twin r') (e : Entity) (q : List κ) :
    Outcome.Agree Twin (r.delete e q) (r'.delete e q) := by
  have hm : r.pools.missing? e q = r'.pools.missing? e q := by
    rw [Pools.missing?, Pools.missing?, h.pools.owns]
  rw [Registry.delete, Registry.delete, ← h.isLive, ← hm]
  split
  · cases firstRepeat? [] q with
    | some k => exact ⟨rfl, h, rfl⟩
    | none =>
      cases r.pools.missing? e q with
      | some k => exact ⟨rfl, h, rfl⟩
      | none => exact ⟨rfl, h.withPools (h.pools.deleteAll e q).2, rfl⟩
  · exact ⟨rfl, h, rfl⟩

theorem deleteOwned (h : r.Twin r') (e : Entity) (q : List κ) :
    Outcome.Agree Twin (r.deleteOwned e q) (r'.deleteOwned e q) :=
  ⟨(h.pools.deleteAll e q).1, h.withPools (h.pools.deleteAll e q).2, rfl⟩

theorem resetPools (h : r.Twin r') (q : List κ) : (r.resetPools q).Twin (r'.resetPools q) :=
  h.withPools (h.pools.clearAll q)

theorem modifyMany (h : r.Twin r') (e : Entity) (q : List κ) (f : Row Value q → Row Value q) :
    Outcome.Agree Twin (r.modifyMany e q f) (r'.modifyMany e q f) := by
  rw [Registry.modifyMany, Registry.modifyMany, ← h.getMany]
  cases r.getMany e q with
  | error cause => exact ⟨rfl, h, rfl⟩
  | ok row => exact ⟨rfl, h.withPools (h.pools.store e _), rfl⟩

theorem perform (h : r.Twin r') (c : Command κ) :
    Outcome.Agree Twin (c.perform r) (c.perform r') := by
  cases c with
  | create => exact h.create
  | destroy e => exact h.destroy e
  | destroyMany es => exact h.destroyCounting 0 es
  | destroyWith q => exact h.destroyWith q
  | reset => exact h.reset
  | assign e k value => exact h.assign e k value
  | replace e k value => exact h.replace e k value
  | assignOrReplace e k value => exact h.assignOrReplace e k value
  | delete e q => exact h.delete e q
  | resetPools q => exact ⟨rfl, h.resetPools q, rfl⟩
  | modify e k f => exact ⟨h.get? e k, h.modify e k f, rfl⟩
  | modifyMany e q f => exact h.modifyMany e q f

theorem reserve (h : r.Twin r') (n : Nat) :
    ((Action.reserve n).reply r = (Action.reserve n).reply r') ∧
      ((Action.reserve n).run r).Twin ((Action.reserve n).run r') := by
  simp only [Action.reply, Action.run, Registry.reserve, SparseSet.reserve_eq,
    ← h.live.canGrow, ← h.recycled.canGrow]
  cases r.live.canGrow n with
  | false => exact ⟨rfl, h⟩
  | true =>
    cases r.recycled.canGrow n with
    | false => exact ⟨rfl, h⟩
    | true => exact ⟨rfl, h.live.grow n, h.recycled.grow n, h.issued, h.pools, h.sizing⟩

theorem forEach {σ : Type} (f : σ → Entity → Row Value q → σ × Row Value q) (s : σ)
    (h : r.Twin r') : Outcome.Agree Twin (r.forEach q f s) (r'.forEach q f s) := by
  rw [Registry.forEach, Registry.forEach, ← h.pools.claim]
  cases r.pools.claim [] q with
  | error cause => exact ⟨rfl, h, rfl⟩
  | ok =>
    obtain ⟨hcount, hs, ht⟩ := h.pools.foldl_visit f r.live.dense.toList 0 s
    simp only [Array.foldl_toList] at hcount hs ht
    simp only [← h.live.dense]
    exact ⟨Prod.ext hcount hs, h.withPools ht, rfl⟩

end Twin

end Registry

namespace Query

/-- Two queries with twins for sets and pools. -/
structure Twin (x x' : Query κ q) : Prop where
  live : x.live.Twin x'.live
  pools : x.pools.Twin x'.pools

variable {q : List κ} {x x' : Query κ q}

namespace Twin

theorem has (h : x.Twin x') : x.has = x'.has := by
  funext e
  rw [Query.has, Query.has, h.live.has, h.pools.owns]

theorem get? (h : x.Twin x') : x.get? = x'.get? := by
  funext e
  rw [Query.get?, Query.get?, h.live.has, h.pools.fetch]

theorem readAlike (h : x.Twin x') : x.ReadAlike x' where
  has := h.has
  get? := h.get?
  entities := by rw [Query.entities, Query.entities, h.live.toList, h.pools.owns]
  count := by rw [Query.count, Query.count, h.live.toList, h.pools.owns]

theorem forEach {σ : Type} (f : σ → Entity → Row Value q → σ × Row Value q) (s : σ)
    (h : x.Twin x') : (x.forEach f s).1 = (x'.forEach f s).1 ∧
      (x.forEach f s).2.Twin (x'.forEach f s).2 := by
  obtain ⟨-, hs, ht⟩ := h.pools.foldl_visit f x.live.dense.toList 0 s
  simp only [Array.foldl_toList] at hs ht
  simp only [Query.forEach, ← h.live.dense]
  exact ⟨hs, h.live, ht⟩

theorem run (h : x.Twin x') (w : Query.Write q) :
    w.answer x = w.answer x' ∧ (w.run x).Twin (w.run x') := by
  cases w with
  | modify e f =>
    simp only [Write.answer, Write.run, ← h.get?]
    cases x.get? e with
    | none => exact ⟨rfl, h⟩
    | some row => exact ⟨rfl, h.live, h.pools.store e _⟩
  | forEach f s => exact h.forEach f s

theorem after (h : x.Twin x') (ws : List (Query.Write q)) :
    x.answers ws = x'.answers ws ∧ (x.after ws).Twin (x'.after ws) := by
  induction ws generalizing x x' with
  | nil => exact ⟨rfl, h⟩
  | cons w ws ih =>
    obtain ⟨ha, ht⟩ := h.run w
    obtain ⟨has, hts⟩ := ih ht
    exact ⟨Prod.ext ha has, hts⟩

end Twin

end Query

omit [DecidableEq κ] in
theorem Pool.Twin.write {k : κ} {p p' : Pool k} (h : p.Twin p') (w : Pool.Write k) :
    w.answer p = w.answer p' ∧ (w.run p).Twin (w.run p') := by
  cases w with
  | assign e value => exact h.call (.assign e value)
  | assignOrReplace e value => exact h.call (.assignOrReplace e value)
  | replace e value => exact h.call (.replace e value)
  | delete e => exact h.call (.delete e)
  | modify e f => exact h.call (.modify e f)
  | map f => exact h.call (.map f)
  | clear => exact h.call .clear
  | reserve n => exact h.call (.reserve n)
  | exchange p hp => exact ⟨h.pairList, hp.twin⟩

namespace Registry.Twin

variable {r r' : Registry κ} {q : List κ}

theorem query (h : r.Twin r') (q : List κ) :
    (∃ cause, r.query q = .error cause ∧ r'.query q = .error cause) ∨
      ∃ x x', r.query q = .ok x ∧ r'.query q = .ok x' ∧ x.Twin x' := by
  rw [Registry.query, Registry.query, ← h.pools.claim]
  cases r.pools.claim [] q with
  | error cause => exact .inl ⟨cause, rfl, rfl⟩
  | ok => exact .inr ⟨_, _, rfl, rfl, h.live, h.pools⟩

theorem pool? (h : r.Twin r') (k : κ) {α : Type} {f : Pool k → α}
    (hf : ∀ {p p' : Pool k}, p.Twin p' → f p = f p') :
    (r.pool? k).map f = (r'.pool? k).map f := by
  rw [Option.map_eq_bind, Option.map_eq_bind]
  exact bind_eq_of_rel (h.pools.get? k) fun _ _ hp => congrArg some (hf hp)

theorem writePool (h : r.Twin r') (k : κ) (w : Pool.Write k) :
    (r.pool? k).map w.answer = (r'.pool? k).map w.answer ∧
      (r.modifyPool k w.run).Twin (r'.modifyPool k w.run) :=
  ⟨h.pool? k fun hp => (hp.write w).1, h.withPools (h.pools.modify fun hp => (hp.write w).2)⟩

theorem run (h : r.Twin r') (a : Action κ) :
    a.reply r = a.reply r' ∧ (a.run r).Twin (a.run r') := by
  cases a with
  | command c =>
    have ho := h.perform c
    exact ⟨Prod.ext ho.result ho.events, ho.state⟩
  | deleteOwned e q =>
    have ho := h.deleteOwned e q
    exact ⟨Prod.ext ho.result ho.events, ho.state⟩
  | reserve n => exact h.reserve n
  | reservePool k n =>
    have ho := h.reservePool k n
    exact ⟨Prod.ext ho.result ho.events, ho.state⟩
  | forEach q f s =>
    have ho := h.forEach f s
    exact ⟨Prod.ext ho.result ho.events, ho.state⟩
  | query q ws =>
    simp only [Action.reply, Action.run]
    rcases h.query q with ⟨cause, hx, hx'⟩ | ⟨x, x', hx, hx', ht⟩
    · rw [hx, hx']
      exact ⟨rfl, h⟩
    · obtain ⟨ha, hw⟩ := ht.after ws
      simp only [hx, hx', ha]
      exact ⟨trivial, h.withPools hw.pools⟩
  | writePool k w =>
    obtain ⟨ha, ht⟩ := h.writePool k w
    exact ⟨Prod.ext ha rfl, ht⟩

theorem after (h : r.Twin r') (as : List (Action κ)) :
    r.replies as = r'.replies as ∧ (r.after as).Twin (r'.after as) := by
  induction as generalizing r r' with
  | nil => exact ⟨rfl, h⟩
  | cons a as ih =>
    obtain ⟨ha, ht⟩ := h.run a
    obtain ⟨has, hts⟩ := ih ht
    rw [replies, replies, ha, has]
    exact ⟨rfl, hts⟩

theorem readAlike (h : r.Twin r') : r.ReadAlike r' where
  isLive := funext h.isLive
  size := h.live.size
  isEmpty := congrArg Array.isEmpty h.live.dense
  entities := h.entities
  capacity := h.live.capacity
  debug := by
    unfold Registry.debug
    rw [h.live.size, h.recycled.size, h.issued, h.pools.size]
  get? := h.get?
  componentNames := by
    funext e
    rw [componentNames, componentNames, h.isLive, h.pools.namesOwned]
  pool? k := h.pool? k Pool.Twin.pairList
  poolCapacity? := funext fun k => h.pool? k Pool.Twin.capacity
  hasPool := funext h.pools.contains
  poolCount := h.pools.size
  poolSizes := h.pools.census
  has := by
    funext e q
    rw [Registry.has, Registry.has, h.isLive, h.pools.ownsAll]
  count := by
    funext q
    rw [Registry.count, Registry.count, h.entities, h.pools.ownsAll]
  isEmptyWith := by
    funext q
    rw [Registry.isEmptyWith, Registry.isEmptyWith, h.entities, h.pools.ownsAll]
  getMany := h.getMany
  refused := by
    intro q cause
    rcases h.query q with ⟨cause', hx, hx'⟩ | ⟨x, x', hx, hx', -⟩ <;> rw [hx, hx']
    simp
  query := by
    intro q x x' hx hx' ws
    rcases h.query q with ⟨cause, hy, -⟩ | ⟨y, y', hy, hy', ht⟩
    · cases hx.symm.trans hy
    · cases hx.symm.trans hy
      cases hx'.symm.trans hy'
      exact (ht.after ws).2.readAlike

end Registry.Twin

end TickWorld
