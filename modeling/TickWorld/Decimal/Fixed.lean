namespace TickWorld.Decimal

/-- The quotient rounded to the nearest integer; halves go to the even neighbour. -/
def roundDiv (num den : Nat) : Nat :=
  let quotient := num / den
  let rest := 2 * (num % den)
  if den < rest ∨ (rest = den ∧ quotient % 2 = 1) then quotient + 1 else quotient

def padLeft (width n : Nat) : List Char :=
  let digits := Nat.toDigits 10 n
  List.replicate (width - digits.length) '0' ++ digits

def ratioText (places num den : Nat) : String :=
  let unit := Nat.pow 10 places
  let scaled := roundDiv (num * unit) den
  let whole := toString (scaled / unit)
  if places = 0 then whole
  else whole ++ "." ++ String.ofList (padLeft places (scaled % unit))

/-- The text of a double-precision number with `places` digits after the point. The exact binary
value is rounded once. -/
def fixed (places : Nat) (x : Float) : String :=
  let bits := x.toBits.toNat
  let negative := 1 <<< 63 ≤ bits
  let exponent := (bits >>> 52) % 0x800
  let fraction := bits % (1 <<< 52)
  if exponent = 0x7FF then
    if fraction = 0 then if negative then "-inf" else "inf" else "NaN"
  else
    let text :=
      if exponent = 0 then ratioText places fraction (1 <<< 1074)
      else ratioText places (((1 <<< 52) + fraction) <<< (exponent - 1)) (1 <<< 1074)
    if negative then "-" ++ text else text

end TickWorld.Decimal
