import TickWorld.Proofs.Storage.Pools

namespace TickWorld

open ComponentKind (name)

variable {κ : Type} [DecidableEq κ]

theorem firstRepeat?_eq_none_iff {seen q : List κ} :
    firstRepeat? seen q = none ↔ q.Nodup ∧ ∀ k ∈ q, k ∉ seen := by
  induction q generalizing seen with
  | nil => simp [firstRepeat?]
  | cons k q ih =>
    rw [firstRepeat?]
    split
    · rename_i hk
      simp [hk]
    · rename_i hk
      rw [ih, List.nodup_cons]
      grind

variable [ComponentKind κ]

namespace Pools

variable {t t' : Pools κ} {e e' : Entity} {k k' : κ} {q : List κ}

theorem missing?_eq_none_iff : t.missing? e q = none ↔ ∀ k ∈ q, t.owns e k = true := by
  simp [missing?, List.find?_eq_none]

theorem ownsAll_iff : t.ownsAll e q = true ↔ q.Nodup ∧ ∀ k ∈ q, t.owns e k = true := by
  rw [ownsAll, Bool.and_eq_true, Option.isNone_iff_eq_none, Option.isNone_iff_eq_none,
    firstRepeat?_eq_none_iff, missing?_eq_none_iff]
  simp

theorem claim_eq_ok_iff {taken : List κ} :
    t.claim taken q = .ok () ↔
      (∀ k ∈ q, t.contains k = true) ∧ q.Nodup ∧ ∀ k ∈ q, k ∉ taken := by
  induction q generalizing taken with
  | nil => simp [claim]
  | cons k q ih =>
    rw [claim]
    split
    · rename_i hc
      rw [Bool.not_eq_true'] at hc
      simp [hc]
    · rename_i hc
      rw [Bool.not_eq_true', Bool.not_eq_false] at hc
      split
      · rename_i hk
        simp [hk]
      · rename_i hk
        rw [ih, List.nodup_cons]
        grind

theorem Valid.contains_of_owns (h : t.Valid) (ho : t.owns e k = true) : t.contains k = true := by
  rw [h.contains_eq]
  cases hp : t.get? k with
  | none => simp [owns, hp] at ho
  | some p => rfl

theorem deleteAll_snd (t : Pools κ) (e : Entity) (q : List κ) :
    (t.deleteAll e q).2 = q.foldl (fun t k => t.modify k (·.erase e)) t := by
  rw [deleteAll]
  generalize 0 = n
  induction q generalizing n t with
  | nil => rfl
  | cons k q ih => exact ih _ _

theorem Valid.deleteAll (h : t.Valid) (e : Entity) (q : List κ) : (t.deleteAll e q).2.Valid := by
  rw [deleteAll_snd]
  induction q generalizing t with
  | nil => exact h
  | cons k q ih => exact ih (h.modify fun p hp => hp.erase e)

theorem Valid.contains_deleteAll (h : t.Valid) (e : Entity) (q : List κ) (k : κ) :
    (t.deleteAll e q).2.contains k = t.contains k := by
  rw [deleteAll_snd]
  induction q generalizing t with
  | nil => rfl
  | cons k' q ih =>
    rw [List.foldl_cons, ih (h.modify fun p hp => hp.erase e),
      h.contains_modify fun p hp => hp.erase e]

theorem Valid.value?_deleteAll (h : t.Valid) (e e' : Entity) (q : List κ) (k : κ) :
    (t.deleteAll e q).2.value? e' k = if e' = e ∧ k ∈ q then none else t.value? e' k := by
  rw [deleteAll_snd]
  induction q generalizing t with
  | nil => simp
  | cons k' q ih =>
    rw [List.foldl_cons, ih (h.modify fun p hp => hp.erase e), h.value?_erase]
    grind

theorem Valid.clearAll (h : t.Valid) (q : List κ) : (t.clearAll q).Valid := by
  rw [Pools.clearAll]
  induction q generalizing t with
  | nil => exact h
  | cons k q ih => exact ih (h.modify fun p _ => Pool.valid_clear p)

theorem Valid.contains_clearAll (h : t.Valid) (q : List κ) (k : κ) :
    (t.clearAll q).contains k = t.contains k := by
  rw [Pools.clearAll]
  induction q generalizing t with
  | nil => rfl
  | cons k' q ih =>
    rw [List.foldl_cons, ih (h.modify fun p _ => Pool.valid_clear p),
      h.contains_modify fun p _ => Pool.valid_clear p]

theorem Valid.value?_clearAll (h : t.Valid) (q : List κ) (e : Entity) (k : κ) :
    (t.clearAll q).value? e k = if k ∈ q then none else t.value? e k := by
  rw [Pools.clearAll]
  induction q generalizing t with
  | nil => simp
  | cons k' q ih =>
    rw [List.foldl_cons, ih (h.modify fun p _ => Pool.valid_clear p), h.value?_clearKind]
    grind

theorem fetch_congr (hv : ∀ k ∈ q, t.value? e k = t'.value? e k) :
    t.fetch e q = t'.fetch e q := by
  induction q with
  | nil => rfl
  | cons k q ih =>
    have hk : (t.get? k).bind (·.get? e) = (t'.get? k).bind (·.get? e) := hv k (by simp)
    rw [fetch, fetch, hk, ih fun k' hk' => hv k' (by simp [hk'])]

theorem Valid.isSome_fetch (h : t.Valid) :
    (t.fetch e q).toOption.isSome = q.all (t.owns e) := by
  induction q with
  | nil => rfl
  | cons k q ih =>
    rw [List.all_cons, ← ih, ← h.isSome_value?, fetch, value?]
    cases (t.get? k).bind (·.get? e) with
    | none => rfl
    | some value => cases t.fetch e q <;> rfl

theorem Valid.store (h : t.Valid) (e : Entity) (row : Row Value q) : (t.store e row).Valid := by
  induction row generalizing t with
  | nil => exact h
  | cons value rest ih => exact ih (h.modify fun p hp => hp.modify e _)

/-- The same kinds have pools and the same entities own components of them. -/
structure Alike (t t' : Pools κ) : Prop where
  contains : ∀ k, t'.contains k = t.contains k
  owns : ∀ e k, t'.owns e k = t.owns e k

theorem Alike.refl (t : Pools κ) : t.Alike t := ⟨fun _ => rfl, fun _ _ => rfl⟩

theorem Alike.trans {t'' : Pools κ} (h : t.Alike t') (h' : t'.Alike t'') : t.Alike t'' :=
  ⟨fun k => (h'.contains k).trans (h.contains k), fun e k => (h'.owns e k).trans (h.owns e k)⟩

theorem Valid.alike_write (h : t.Valid) (e : Entity) (f : Value k → Value k) :
    t.Alike (t.modify k (·.modify e f)) := by
  have hf : ∀ p : Pool k, p.Valid → (p.modify e f).Valid := fun p hp => hp.modify e f
  refine ⟨h.contains_modify hf, ?_⟩
  intro e' k'
  rw [← (h.modify hf).isSome_value?, ← h.isSome_value?]
  by_cases hk : k' = k
  · subst k'
    rw [h.value?_write]
    by_cases he : e' = e <;> simp [he]
  · rw [h.value?_modify_of_ne hf hk]

theorem Valid.alike_store (h : t.Valid) (e : Entity) (row : Row Value q) :
    t.Alike (t.store e row) := by
  induction row generalizing t with
  | nil => exact .refl t
  | cons value rest ih =>
    exact (h.alike_write e _).trans (ih (h.modify fun p hp => hp.modify e _))

theorem Valid.value?_store_of_ne (h : t.Valid) (row : Row Value q) (he : e' ≠ e) (k : κ) :
    (t.store e row).value? e' k = t.value? e' k := by
  induction row generalizing t with
  | nil => rfl
  | @cons k' q value rest ih =>
    have hf : ∀ p : Pool k', p.Valid → (p.modify e fun _ => value).Valid :=
      fun p hp => hp.modify e _
    rw [Pools.store, ih (h.modify hf)]
    by_cases hk : k = k'
    · subst k'
      rw [h.value?_write, if_neg he]
    · rw [h.value?_modify_of_ne hf hk]

theorem Valid.value?_store_of_not_mem (h : t.Valid) (e e' : Entity) (row : Row Value q)
    (hk : k ∉ q) : (t.store e row).value? e' k = t.value? e' k := by
  induction row generalizing t with
  | nil => rfl
  | @cons k' q value rest ih =>
    have hf : ∀ p : Pool k', p.Valid → (p.modify e fun _ => value).Valid :=
      fun p hp => hp.modify e _
    rw [List.mem_cons, not_or] at hk
    rw [Pools.store, ih (h.modify hf) hk.2, h.value?_modify_of_ne hf hk.1]

theorem fetch_cons_eq_ok_iff {value : Value k} {rest : Row Value q} :
    t.fetch e (k :: q) = .ok (.cons value rest) ↔
      t.value? e k = some value ∧ t.fetch e q = .ok rest := by
  rw [fetch, value?]
  cases (t.get? k).bind (·.get? e) with
  | none => simp
  | some value' => cases t.fetch e q <;> simp

theorem Valid.fetch_store (h : t.Valid) (hq : q.Nodup) {old : Row Value q}
    (ho : t.fetch e q = .ok old) (row : Row Value q) : (t.store e row).fetch e q = .ok row := by
  induction row generalizing t with
  | nil => rfl
  | @cons k q value rest ih =>
    obtain _ | ⟨old, older⟩ := old
    obtain ⟨hv, hr⟩ := fetch_cons_eq_ok_iff.mp ho
    rw [List.nodup_cons] at hq
    have hf : ∀ p : Pool k, p.Valid → (p.modify e fun _ => value).Valid :=
      fun p hp => hp.modify e _
    have hsame : (t.modify k (·.modify e fun _ => value)).fetch e q = t.fetch e q := by
      apply fetch_congr
      intro k' hk'
      exact h.value?_modify_of_ne hf (fun he => hq.1 (he ▸ hk')) e
    rw [fetch_cons_eq_ok_iff, Pools.store, (h.modify hf).value?_store_of_not_mem e e rest hq.1,
      h.value?_write, if_pos rfl, hv]
    exact ⟨rfl, ih (h.modify hf) hq.2 (hsame.trans hr)⟩

def rows (t : Pools κ) (q : List κ) (es : List Entity) : List (Entity × Row Value q) :=
  es.filterMap fun e => (t.fetch e q).toOption.map (e, ·)

theorem mem_rows {es : List Entity} {x : Entity × Row Value q} :
    x ∈ t.rows q es ↔ x.1 ∈ es ∧ t.fetch x.1 q = .ok x.2 := by
  obtain ⟨e, row⟩ := x
  rw [rows, List.mem_filterMap]
  constructor
  · intro hx
    obtain ⟨e', he', hrow⟩ := hx
    cases hf : t.fetch e' q with
    | error cause => simp [hf, Except.toOption] at hrow
    | ok row' =>
      rw [hf] at hrow
      cases hrow
      exact ⟨he', hf⟩
  · intro hx
    obtain ⟨he, hf⟩ := hx
    exact ⟨e, he, by rw [hf]; rfl⟩

theorem rows_congr {es : List Entity} (hv : ∀ e ∈ es, ∀ k ∈ q, t.value? e k = t'.value? e k) :
    t.rows q es = t'.rows q es := by
  induction es with
  | nil => rfl
  | cons e es ih =>
    rw [rows, rows, List.filterMap_cons, List.filterMap_cons, fetch_congr (hv e (by simp))]
    have hr := ih fun e' he' => hv e' (by simp [he'])
    rw [rows, rows] at hr
    rw [hr]

theorem Valid.map_fst_rows (h : t.Valid) (q : List κ) (es : List Entity) :
    (t.rows q es).map Prod.fst = es.filter fun e => q.all (t.owns e) := by
  induction es with
  | nil => rfl
  | cons e es ih =>
    rw [rows, List.filterMap_cons, List.filter_cons, ← h.isSome_fetch]
    rw [rows] at ih
    cases t.fetch e q with
    | error cause => simpa [Except.toOption] using ih
    | ok row => simpa [Except.toOption] using ih

end Pools

end TickWorld
