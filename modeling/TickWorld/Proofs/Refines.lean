namespace TickWorld

universe u v w

variable {C : Type u} {A : C → Type v} {σ δ : Type w}

def afterCalls (perform : (c : C) → σ → A c × σ) (s : σ) (cs : List C) : σ :=
  cs.foldl (fun s c => (perform c s).2) s

/-- The answers to some calls, each with what is observed after it. -/
def transcript (perform : (c : C) → σ → A c × σ) (observe : σ → δ) (s : σ) :
    List C → List ((c : C) × A c × δ)
  | [] => []
  | c :: cs =>
    ⟨c, (perform c s).1, observe (perform c s).2⟩ ::
      transcript perform observe (perform c s).2 cs

/-- In states that satisfy an invariant, every call answers what it means for what is observed, and
leads to what it means. -/
structure Refines (inv : σ → Prop) (observe : σ → δ) (perform : (c : C) → σ → A c × σ)
    (meaning : (c : C) → δ → A c × δ) : Prop where
  keeps : ∀ (c : C) {s : σ}, inv s → inv (perform c s).2
  answer : ∀ (c : C) {s : σ}, inv s → (perform c s).1 = (meaning c (observe s)).1
  observed : ∀ (c : C) {s : σ}, inv s → observe (perform c s).2 = (meaning c (observe s)).2

namespace Refines

variable {inv : σ → Prop} {observe : σ → δ} {perform : (c : C) → σ → A c × σ}
  {meaning : (c : C) → δ → A c × δ} {s : σ}

theorem congr {s' : σ} (h : Refines inv observe perform meaning) (hs : inv s) (hs' : inv s')
    (ho : observe s = observe s') (c : C) :
    (perform c s).1 = (perform c s').1 ∧
      observe (perform c s).2 = observe (perform c s').2 := by
  rw [h.answer c hs, h.answer c hs', h.observed c hs, h.observed c hs', ho]
  exact ⟨rfl, rfl⟩

theorem after (h : Refines inv observe perform meaning) (hs : inv s) (cs : List C) :
    inv (afterCalls perform s cs) ∧
      observe (afterCalls perform s cs) = afterCalls meaning (observe s) cs := by
  induction cs generalizing s with
  | nil => exact ⟨hs, rfl⟩
  | cons c cs ih =>
    obtain ⟨hi, ho⟩ := ih (h.keeps c hs)
    rw [h.observed c hs] at ho
    exact ⟨hi, ho⟩

theorem transcript_eq (h : Refines inv observe perform meaning) (hs : inv s) (cs : List C) :
    transcript perform observe s cs = transcript meaning id (observe s) cs := by
  induction cs generalizing s with
  | nil => rfl
  | cons c cs ih =>
    rw [transcript, transcript, ih (h.keeps c hs), h.answer c hs, h.observed c hs]
    rfl

end Refines

end TickWorld
