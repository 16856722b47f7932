namespace TickWorld

variable {α : Type} {l : List α} {a b : α} {i : Nat} {bad : Nat → α → Prop}

/-- `a` stands at place `i` of a list, and that is the first bad one. -/
structure Leftmost (l : List α) (bad : Nat → α → Prop) (i : Nat) (a : α) : Prop where
  place : l[i]? = some a
  found : bad i a
  before : ∀ j b, j < i → l[j]? = some b → ¬bad j b

theorem leftmost_cons_zero : Leftmost (a :: l) bad 0 b ↔ b = a ∧ bad 0 a := by
  constructor
  · intro h
    have hb := h.place
    rw [List.getElem?_cons_zero, Option.some.injEq] at hb
    subst b
    exact ⟨rfl, h.found⟩
  · rintro ⟨rfl, hbad⟩
    exact ⟨rfl, hbad, fun _ _ hj => absurd hj (Nat.not_lt_zero _)⟩

theorem leftmost_cons_succ :
    Leftmost (a :: l) bad (i + 1) b ↔ ¬bad 0 a ∧ Leftmost l (fun j => bad (j + 1)) i b := by
  constructor
  · intro h
    refine ⟨h.before 0 a (Nat.succ_pos i) rfl, h.place, h.found, ?_⟩
    intro j c hj hc
    exact h.before (j + 1) c (Nat.succ_lt_succ hj) hc
  · rintro ⟨ha, h⟩
    refine ⟨h.place, h.found, ?_⟩
    intro j c hj hc
    cases j with
    | zero =>
      cases hc
      exact ha
    | succ j => exact h.before j c (Nat.lt_of_succ_lt_succ hj) hc

theorem exists_leftmost_cons {P : α → Prop} :
    (∃ i b, Leftmost (a :: l) bad i b ∧ P b) ↔
      (bad 0 a ∧ P a) ∨ (¬bad 0 a ∧ ∃ i b, Leftmost l (fun j => bad (j + 1)) i b ∧ P b) := by
  constructor
  · rintro ⟨i, b, h, hp⟩
    cases i with
    | zero =>
      obtain ⟨rfl, hbad⟩ := leftmost_cons_zero.mp h
      exact .inl ⟨hbad, hp⟩
    | succ i =>
      obtain ⟨ha, h⟩ := leftmost_cons_succ.mp h
      exact .inr ⟨ha, i, b, h, hp⟩
  · rintro (⟨hbad, hp⟩ | ⟨ha, i, b, h, hp⟩)
    · exact ⟨0, a, leftmost_cons_zero.mpr ⟨rfl, hbad⟩, hp⟩
    · exact ⟨i + 1, b, leftmost_cons_succ.mpr ⟨ha, h⟩, hp⟩

theorem exists_leftmost_cons_eq :
    (∃ i, Leftmost (a :: l) bad i b) ↔
      (bad 0 a ∧ a = b) ∨ (¬bad 0 a ∧ ∃ i, Leftmost l (fun j => bad (j + 1)) i b) := by
  have h : (∃ i c, Leftmost (a :: l) bad i c ∧ c = b) ↔
      (bad 0 a ∧ a = b) ∨ (¬bad 0 a ∧ ∃ i c, Leftmost l (fun j => bad (j + 1)) i c ∧ c = b) :=
    exists_leftmost_cons
  simpa only [exists_eq_right] using h

/-- What stands before the leftmost bad place is not bad where it stands. -/
theorem Leftmost.of_mem_take (h : Leftmost l bad i a) (hb : b ∈ l.take i) :
    ∃ j, l[j]? = some b ∧ ¬bad j b := by
  obtain ⟨j, hj, rfl⟩ := List.mem_take_iff_getElem.mp hb
  obtain ⟨hi, hl⟩ := Nat.lt_min.mp hj
  exact ⟨j, List.getElem?_eq_getElem hl, h.before j l[j] hi (List.getElem?_eq_getElem hl)⟩

theorem not_leftmost_nil : ¬Leftmost ([] : List α) bad i a := by
  intro h
  have hp := h.place
  simp at hp

end TickWorld
