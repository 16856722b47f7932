namespace TickWorld

/-- Removes the element at `slot` and moves the last element into its place. An array without
that slot is left as it is. -/
def swapRemove {α : Type} (xs : Array α) (slot : Nat) : Array α :=
  if slot < xs.size then
    match xs.back? with
    | some last => (xs.setIfInBounds slot last).pop
    | none => xs
  else xs

theorem size_swapRemove {α : Type} {xs : Array α} {slot : Nat} (h : slot < xs.size) :
    (swapRemove xs slot).size = xs.size - 1 := by
  have hb : xs.back? = some xs[xs.size - 1] := by
    simp [Array.back?]
  simp [swapRemove, h, hb]

theorem getElem?_swapRemove {α : Type} {xs : Array α} {slot : Nat} (h : slot < xs.size)
    (i : Nat) :
    (swapRemove xs slot)[i]? =
      if i < xs.size - 1 then if i = slot then xs[xs.size - 1]? else xs[i]? else none := by
  have hb : xs.back? = some xs[xs.size - 1] := by
    simp [Array.back?]
  simp only [swapRemove, h, if_true, hb, Array.getElem?_pop, Array.size_setIfInBounds,
    Array.getElem?_setIfInBounds]
  have hlast : xs[xs.size - 1]? = some xs[xs.size - 1] := by
    simp
  rw [hlast]
  grind

end TickWorld
