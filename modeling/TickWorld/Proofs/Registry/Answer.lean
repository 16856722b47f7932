import TickWorld.Proofs.Registry.Action
import TickWorld.Proofs.Storage.PairList

namespace TickWorld

variable {κ : Type} [ComponentKind κ]

/-- What a direct write answers. An exchange hands out the pool that it takes away. -/
def Pool.Write.Answer {k : κ} : Pool.Write k → Type
  | assign .. | assignOrReplace .. | reserve _ => Except Failure Unit
  | replace .. => Except Failure (Value k)
  | delete _ | modify .. => Option (Value k)
  | map _ => List (Entity × Value k)
  | clear => Unit
  | exchange .. => PairList k

def Pool.Write.answer {k : κ} : (w : Pool.Write k) → Pool k → w.Answer
  | assign e value, p => (p.assign e value).1
  | assignOrReplace e value, p => (p.assignOrReplace e value).1
  | replace e value, p => (p.replace e value).1
  | delete e, p => (p.delete e).1
  | modify e _, p => p.get? e
  | map _, p => p.pairs
  | clear, _ => ()
  | reserve n, p => (p.reserve n).1
  | exchange _ _, p => p.pairList

variable [DecidableEq κ] {q : List κ}

def Query.Write.Answer : Query.Write q → Type
  | modify .. => Option (Row Value q)
  | forEach (τ := τ) .. => τ

def Query.Write.answer : (w : Query.Write q) → Query κ q → w.Answer
  | modify e _, x => x.get? e
  | forEach f s, x => (x.forEach f s).1

def Query.Answers : List (Query.Write q) → Type
  | [] => Unit
  | w :: ws => w.Answer × Query.Answers ws

def Query.answers (x : Query κ q) : (ws : List (Query.Write q)) → Query.Answers ws
  | [] => ()
  | w :: ws => (w.answer x, (w.run x).answers ws)

def Action.Answer : Action κ → Type
  | command c => c.Answer
  | deleteOwned .. => Nat
  | reserve _ => Except Fault Unit
  | reservePool .. => Except Failure Unit
  | forEach (τ := τ) .. => Nat × τ
  | query _ ws => Except Failure (Query.Answers ws)
  | writePool _ w => Option w.Answer

def Action.reply : (a : Action κ) → Registry κ → a.Answer × Array Event
  | command c, r => ((c.perform r).result, (c.perform r).events)
  | deleteOwned e q, r => ((r.deleteOwned e q).result, (r.deleteOwned e q).events)
  | reserve n, r =>
    (match r.reserve n with
      | .ok _ => .ok ()
      | .error fault => .error fault, #[])
  | reservePool k n, r => ((r.reservePool k n).result, (r.reservePool k n).events)
  | forEach q f s, r => ((r.forEach q f s).result, (r.forEach q f s).events)
  | query q ws, r =>
    (match r.query q with
      | .ok x => .ok (x.answers ws)
      | .error cause => .error cause, #[])
  | writePool k w, r => ((r.pool? k).map w.answer, #[])

def Registry.replies (r : Registry κ) :
    List (Action κ) → List ((a : Action κ) × a.Answer × Array Event)
  | [] => []
  | a :: as => ⟨a, a.reply r⟩ :: (a.run r).replies as

structure Query.ReadAlike (x x' : Query κ q) : Prop where
  has : x.has = x'.has
  get? : x.get? = x'.get?
  entities : x.entities = x'.entities
  count : x.count = x'.count

/-- Two registries are read alike, also through queries. -/
structure Registry.ReadAlike (r r' : Registry κ) : Prop where
  isLive : r.isLive = r'.isLive
  size : r.size = r'.size
  isEmpty : r.isEmpty = r'.isEmpty
  entities : r.entities = r'.entities
  capacity : r.capacity = r'.capacity
  debug : r.debug = r'.debug
  get? : ∀ e k, r.get? e k = r'.get? e k
  componentNames : r.componentNames = r'.componentNames
  pool? : ∀ k, (r.pool? k).map Pool.pairList = (r'.pool? k).map Pool.pairList
  poolCapacity? : r.poolCapacity? = r'.poolCapacity?
  hasPool : r.hasPool = r'.hasPool
  poolCount : r.poolCount = r'.poolCount
  poolSizes : r.poolSizes = r'.poolSizes
  has : r.has = r'.has
  count : r.count = r'.count
  isEmptyWith : r.isEmptyWith = r'.isEmptyWith
  getMany : ∀ e q, r.getMany e q = r'.getMany e q
  refused : ∀ q cause, r.query q = .error cause ↔ r'.query q = .error cause
  query : ∀ q x x', r.query q = .ok x → r'.query q = .ok x' →
    ∀ ws, (x.after ws).ReadAlike (x'.after ws)

end TickWorld
