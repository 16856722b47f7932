import TickWorld.Proofs.Leftmost
import TickWorld.Proofs.Registry.Selection

namespace TickWorld

open ComponentKind (name)

variable {κ : Type} [DecidableEq κ]

theorem firstRepeat?_eq_some_iff {seen q : List κ} {k : κ} :
    firstRepeat? seen q = some k ↔
      ∃ i, Leftmost q (fun i k => k ∈ seen ∨ k ∈ q.take i) i k := by
  induction q generalizing seen with
  | nil => simp [firstRepeat?, not_leftmost_nil]
  | cons k' q ih =>
    rw [exists_leftmost_cons_eq, firstRepeat?]
    by_cases hk : k' ∈ seen
    · simp [hk]
    · simp [hk, ih, or_assoc, or_left_comm]

theorem firstRepeat?_nil {q : List κ} {k : κ} :
    firstRepeat? [] q = some k ↔ ∃ i, Leftmost q (fun i k => k ∈ q.take i) i k := by
  simp [firstRepeat?_eq_some_iff]

variable [ComponentKind κ]

namespace Pools

variable {t : Pools κ} {e : Entity} {q taken : List κ} {cause : Failure}

def refusal (t : Pools κ) (k : κ) : Failure :=
  if t.contains k then .duplicateComponent (name k) else .unregisteredComponent (name k)

theorem claim_eq_error_iff :
    t.claim taken q = .error cause ↔
      ∃ i k, Leftmost q (fun i k => t.contains k = false ∨ k ∈ taken ∨ k ∈ q.take i) i k ∧
        t.refusal k = cause := by
  induction q generalizing taken with
  | nil => simp [claim, not_leftmost_nil]
  | cons k q ih =>
    rw [exists_leftmost_cons, claim, refusal]
    cases hc : t.contains k with
    | false => simp
    | true =>
      by_cases hk : k ∈ taken
      · simp [hk]
      · simp [hk, ih, or_assoc, or_left_comm]

theorem Valid.missing?_eq_some_iff {k : κ} (h : t.Valid) :
    t.missing? e q = some k ↔ ∃ i, Leftmost q (fun _ k => t.value? e k = none) i k := by
  rw [missing?]
  induction q with
  | nil => simp [not_leftmost_nil]
  | cons k' q ih =>
    rw [exists_leftmost_cons_eq, List.find?_cons, ← h.owns_eq_false_iff]
    cases t.owns e k' with
    | false => simp
    | true => simp [ih]

theorem fetch_eq_error_iff :
    t.fetch e q = .error cause ↔
      ∃ i k, Leftmost q (fun _ k => t.value? e k = none) i k ∧
        Failure.missingComponent e (name k) = cause := by
  induction q with
  | nil => simp [fetch, not_leftmost_nil]
  | cons k q ih =>
    rw [exists_leftmost_cons, fetch, ← value?, ← ih]
    cases t.value? e k with
    | none => simp
    | some value => cases t.fetch e q <;> simp

end Pools

namespace Registry

variable {r : Registry κ} {e : Entity} {q : List κ} {cause : Failure}

/-- What is wrong with a list of kinds that is to be claimed: its leftmost kind that has no pool or
stands in the list before. -/
inductive ClaimFault (r : Registry κ) (q : List κ) : Failure → Prop where
  | unregistered {i : Nat} {k : κ} :
    Leftmost q (fun i k => r.hasPool k = false ∨ k ∈ q.take i) i k → r.hasPool k = false →
      ClaimFault r q (.unregisteredComponent (name k))
  | repeated {i : Nat} {k : κ} :
    Leftmost q (fun i k => r.hasPool k = false ∨ k ∈ q.take i) i k → k ∈ q.take i →
      ClaimFault r q (.duplicateComponent (name k))

/-- What is wrong with reading several components of an entity: the entity, or else the list of
kinds, or else the leftmost component that it lacks. -/
inductive ReadFault (r : Registry κ) (e : Entity) (q : List κ) : Failure → Prop where
  | dead : r.isLive e = false → ReadFault r e q (.deadEntity e)
  | claim {cause : Failure} : r.isLive e = true → r.ClaimFault q cause → ReadFault r e q cause
  | missing {i : Nat} {k : κ} : r.isLive e = true → (∀ cause, ¬r.ClaimFault q cause) →
    Leftmost q (fun _ k => r.get? e k = none) i k →
      ReadFault r e q (.missingComponent e (name k))

/-- What is wrong with detaching several components of an entity: the entity, or else the leftmost
kind that stands in the list before, or else the leftmost component that the entity lacks. -/
inductive DetachFault (r : Registry κ) (e : Entity) (q : List κ) : Failure → Prop where
  | dead : r.isLive e = false → DetachFault r e q (.deadEntity e)
  | repeated {i : Nat} {k : κ} : r.isLive e = true → Leftmost q (fun i k => k ∈ q.take i) i k →
      DetachFault r e q (.duplicateComponent (name k))
  | missing {i : Nat} {k : κ} : r.isLive e = true → q.Nodup →
    Leftmost q (fun _ k => r.get? e k = none) i k →
      DetachFault r e q (.missingComponent e (name k))

theorem claim_eq_error_iff : r.pools.claim [] q = .error cause ↔ r.ClaimFault q cause := by
  rw [Pools.claim_eq_error_iff]
  simp only [List.not_mem_nil, false_or]
  constructor
  · rintro ⟨i, k, hk, rfl⟩
    rw [Pools.refusal]
    cases hc : r.pools.contains k with
    | false => exact .unregistered hk hc
    | true => exact .repeated hk (hk.found.resolve_left (by simp [hc]))
  · intro h
    cases h with
    | @unregistered i k hk hc =>
      have hc' : r.pools.contains k = false := hc
      exact ⟨i, k, hk, by rw [Pools.refusal, hc', if_neg Bool.false_ne_true]⟩
    | @repeated i k hk hm =>
      -- The kind was claimed where it stands first, so it has a pool.
      obtain ⟨j, -, hc⟩ := hk.of_mem_take hm
      rw [not_or, Bool.not_eq_false] at hc
      have hc' : r.pools.contains k = true := hc.1
      exact ⟨i, k, hk, by rw [Pools.refusal, hc', if_pos rfl]⟩

theorem claimable_iff_forall : r.Claimable q ↔ ∀ cause, ¬r.ClaimFault q cause := by
  simp only [← claim_eq_error_iff, ← claimable_iff]
  cases r.pools.claim [] q <;> simp

theorem query_eq_error_iff : r.query q = .error cause ↔ r.ClaimFault q cause := by
  rw [← claim_eq_error_iff, Registry.query]
  cases r.pools.claim [] q <;> simp

theorem value?_of_live (he : r.isLive e = true) (k : κ) : r.pools.value? e k = r.get? e k := by
  rw [Registry.get?, if_pos he]
  rfl

theorem getMany_eq_error_of_live (he : r.isLive e = true) :
    r.getMany e q = .error cause ↔
      r.pools.claim [] q = .error cause ∨
        r.pools.claim [] q = .ok () ∧ r.pools.fetch e q = .error cause := by
  rw [Registry.getMany, if_pos he]
  cases r.pools.claim [] q <;> simp

theorem delete_eq_error_of_live (he : r.isLive e = true) :
    (r.delete e q).result = .error cause ↔
      (∃ k, firstRepeat? [] q = some k ∧ Failure.duplicateComponent (name k) = cause) ∨
        firstRepeat? [] q = none ∧
          ∃ k, r.pools.missing? e q = some k ∧ Failure.missingComponent e (name k) = cause := by
  rw [Registry.delete, if_pos he]
  cases firstRepeat? [] q with
  | some k => simp
  | none => cases r.pools.missing? e q <;> simp

theorem getMany_eq_error_iff : r.getMany e q = .error cause ↔ r.ReadFault e q cause := by
  cases he : r.isLive e with
  | false =>
    rw [Registry.getMany, he, if_neg Bool.false_ne_true, Except.error.injEq]
    constructor
    · rintro rfl
      exact .dead he
    · intro hx
      cases hx with
      | dead => rfl
      | claim hl | missing hl => cases he.symm.trans hl
  | true =>
    rw [getMany_eq_error_of_live he, claim_eq_error_iff, claimable_iff, claimable_iff_forall,
      Pools.fetch_eq_error_iff]
    simp only [value?_of_live he]
    constructor
    · rintro (hf | ⟨hn, i, k, hk, rfl⟩)
      · exact .claim he hf
      · exact .missing he hn hk
    · intro hx
      cases hx with
      | dead hd => cases he.symm.trans hd
      | claim _ hf => exact .inl hf
      | missing _ hn hk => exact .inr ⟨hn, _, _, hk, rfl⟩

theorem Valid.delete_eq_error_iff (h : r.Valid) :
    (r.delete e q).result = .error cause ↔ r.DetachFault e q cause := by
  cases he : r.isLive e with
  | false =>
    rw [Registry.delete, he, if_neg Bool.false_ne_true, Except.error.injEq]
    constructor
    · rintro rfl
      exact .dead he
    · intro hx
      cases hx with
      | dead => rfl
      | repeated hl | missing hl => cases he.symm.trans hl
  | true =>
    have hq : firstRepeat? [] q = none ↔ q.Nodup := by
      simp [firstRepeat?_eq_none_iff]
    rw [delete_eq_error_of_live he, hq]
    simp only [firstRepeat?_nil, h.pools.missing?_eq_some_iff, value?_of_live he]
    constructor
    · rintro (⟨k, ⟨i, hk⟩, rfl⟩ | ⟨hn, k, ⟨i, hk⟩, rfl⟩)
      · exact .repeated he hk
      · exact .missing he hn hk
    · intro hx
      cases hx with
      | dead hd => cases he.symm.trans hd
      | repeated _ hk => exact .inl ⟨_, ⟨_, hk⟩, rfl⟩
      | missing _ hn hk => exact .inr ⟨hn, _, ⟨_, hk⟩, rfl⟩

theorem exists_ok_iff {α : Type} {answer : Except Failure α} {fault : Failure → Prop}
    (hf : ∀ cause, answer = .error cause ↔ fault cause) :
    (∃ x, answer = .ok x) ↔ ∀ cause, ¬fault cause := by
  simp only [← hf]
  cases answer <;> simp

theorem Valid.forEach_eq_zero_iff (h : r.Valid) {σ : Type}
    (f : σ → Entity → Row Value q → σ × Row Value q) (s : σ) :
    (r.forEach q f s).result.1 = 0 ↔ (∃ cause, r.query q = .error cause) ∨ r.selection q = [] := by
  obtain ⟨rows, -, -, hresult⟩ := h.forEach_rows q
  rw [hresult f s, List.length_eq_zero_iff]
  constructor
  · exact .inr
  · rintro (⟨cause, hx⟩ | hn)
    · apply h.selection_eq_nil
      rw [claimable_iff_forall]
      exact fun hn => hn cause (query_eq_error_iff.mp hx)
    · exact hn

/-- Each refusal names what is wrong first, and nothing else is refused. -/
structure Blames (r : Registry κ) (e : Entity) (q : List κ) : Prop where
  getMany_error : ∀ cause, r.getMany e q = .error cause ↔ r.ReadFault e q cause
  getMany_ok : (∃ row, r.getMany e q = .ok row) ↔ ∀ cause, ¬r.ReadFault e q cause
  query_error : ∀ cause, r.query q = .error cause ↔ r.ClaimFault q cause
  query_ok : (∃ x, r.query q = .ok x) ↔ ∀ cause, ¬r.ClaimFault q cause
  delete_error : ∀ cause, (r.delete e q).result = .error cause ↔ r.DetachFault e q cause
  delete_ok : (r.delete e q).result = .ok () ↔ ∀ cause, ¬r.DetachFault e q cause
  delete_unregistered : ∀ c, (r.delete e q).result ≠ .error (.unregisteredComponent c)
  forEach_zero : ∀ {σ : Type} (f : σ → Entity → Row Value q → σ × Row Value q) (s : σ),
    (r.forEach q f s).result.1 = 0 ↔ (∃ cause, r.query q = .error cause) ∨ r.selection q = []
  forEach_idle : ∀ {σ : Type} (f : σ → Entity → Row Value q → σ × Row Value q) (s : σ),
    (r.forEach q f s).result.1 = 0 →
      (r.forEach q f s).result = (0, s) ∧ (r.forEach q f s).state = r

end Registry

/-- In every reachable registry, a list of kinds is refused for its leftmost fault: claiming finds
kinds without a pool and repeated kinds in one pass, detaching finds repeated kinds before it finds
kinds that are lacking, and walking visits nothing instead of refusing. -/
theorem refusals_name_leftmost {r : Registry κ} (h : r.Reachable) (e : Entity) (q : List κ) :
    r.Blames e q where
  getMany_error _ := Registry.getMany_eq_error_iff
  getMany_ok := Registry.exists_ok_iff fun _ => Registry.getMany_eq_error_iff
  query_error _ := Registry.query_eq_error_iff
  query_ok := Registry.exists_ok_iff fun _ => Registry.query_eq_error_iff
  delete_error _ := h.valid.delete_eq_error_iff
  delete_ok := by
    rw [← Registry.exists_ok_iff fun _ => h.valid.delete_eq_error_iff]
    exact ⟨fun ho => ⟨(), ho⟩, fun ⟨(), ho⟩ => ho⟩
  delete_unregistered c hc := by
    rw [h.valid.delete_eq_error_iff] at hc
    cases hc
  forEach_zero := h.valid.forEach_eq_zero_iff
  forEach_idle f s hz := by
    apply h.valid.forEach_of_selection_nil
    obtain ⟨rows, -, -, hresult⟩ := h.valid.forEach_rows q
    rw [hresult f s, List.length_eq_zero_iff] at hz
    exact hz

/-- A kind without a pool is named twice: claiming misses its pool, detaching sees the
repetition. -/
theorem refusals_name_leftmost_mana :
    ∃ r : Registry (Drift.Kind Empty), r.Reachable ∧ r.entities = [⟨0⟩] ∧
      ∃ q : List (Drift.Kind Empty), q = [.health, .mana, .mana] ∧ r.Blames ⟨0⟩ q ∧
        r.getMany ⟨0⟩ q = .error (.unregisteredComponent (name (Drift.Kind.mana (ε := Empty)))) ∧
        (r.delete ⟨0⟩ q).result =
          .error (.duplicateComponent (name (Drift.Kind.mana (ε := Empty)))) := by
  let r₀ : Registry (Drift.Kind Empty) := { sizing := ⟨0, 0⟩ }
  let r := r₀.after [.command .create, .command (.assign ⟨0⟩ .health (Drift.Health.full 9))]
  let q : List (Drift.Kind Empty) := [.health, .mana, .mana]
  have hr : r.Reachable := (Registry.reachable_empty 0).after _
  have hb := refusals_name_leftmost hr ⟨0⟩ q
  have hl : r.isLive ⟨0⟩ = true := by decide
  have hpool : r.hasPool .mana = false := by decide +kernel
  have hclaim : Leftmost q (fun i k => r.hasPool k = false ∨ k ∈ q.take i) 1 .mana := by
    refine ⟨rfl, .inl hpool, ?_⟩
    intro j k hj hk
    match j with
    | 0 => cases hk; decide +kernel
  have hrepeat : Leftmost q (fun i k => k ∈ q.take i) 2 .mana := by
    refine ⟨rfl, by decide, ?_⟩
    intro j k hj hk
    match j with
    | 0 => cases hk; decide
    | 1 => cases hk; decide
  exact ⟨r, hr, by decide +kernel, q, rfl, hb,
    (hb.getMany_error _).mpr (.claim hl (.unregistered hclaim hpool)),
    (hb.delete_error _).mpr (.repeated hl hrepeat)⟩

end TickWorld
