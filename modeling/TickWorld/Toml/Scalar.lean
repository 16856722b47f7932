import TickWorld.Toml.Text
import TickWorld.Toml.Value

namespace TickWorld.Toml

/-- Reads digits, which may be grouped by single underscores between them, to the end. The answer
is the digits alone. -/
def ungroup (isDigit : Char → Bool) : List Char → Option (List Char)
  | [] => none
  | [c] => if isDigit c then some [c] else none
  | c :: '_' :: rest => if isDigit c then (ungroup isDigit rest).map (c :: ·) else none
  | c :: rest => if isDigit c then (ungroup isDigit rest).map (c :: ·) else none

def splitSign : List Char → Bool × List Char
  | '+' :: cs => (false, cs)
  | '-' :: cs => (true, cs)
  | cs => (false, cs)

def decimalDigits? (cs : List Char) : Option (List Char) :=
  match ungroup Char.isDigit cs with
  | some ('0' :: _ :: _) => none
  | digits => digits

def fits (n : Int) : Bool := -0x8000000000000000 ≤ n && n < 0x8000000000000000

def based? (base : Nat) (isDigit : Char → Bool) (cs : List Char) : Option Int :=
  (ungroup isDigit cs).map fun digits => numberOf base digits

def integer? (word : List Char) : Option Int :=
  let n := match word with
    | '0' :: 'x' :: cs => based? 16 isHexDigit cs
    | '0' :: 'o' :: cs => based? 8 (fun c => '0' ≤ c && c ≤ '7') cs
    | '0' :: 'b' :: cs => based? 2 (fun c => c = '0' || c = '1') cs
    | _ =>
      let (negative, cs) := splitSign word
      (decimalDigits? cs).map fun digits =>
        if negative then -numberOf 10 digits else numberOf 10 digits
  n.filter fits

/-- Whether `digits` times ten to the power `exponent` is nearer to two to the power 1024 than to
any number that double precision has below it. -/
def overflows (digits : Nat) (exponent : Int) : Bool :=
  let bound := (1 <<< 1024) - (1 <<< 970)
  let magnitude := (Nat.toDigits 10 digits).length + exponent
  if digits = 0 ∨ magnitude < 308 then false
  else if 310 < magnitude then true
  else if 0 ≤ exponent then bound ≤ digits * Nat.pow 10 exponent.toNat
  else bound * Nat.pow 10 (-exponent).toNat ≤ digits

def exponent? : List Char → Option Int
  | [] => some 0
  | c :: cs =>
    if c = 'e' || c = 'E' then
      let (negative, cs) := splitSign cs
      (ungroup Char.isDigit cs).map fun digits =>
        if negative then -numberOf 10 digits else numberOf 10 digits
    else none

def finite? (word : List Char) : Option Real := do
  let isDigit c := Char.isDigit c || c = '_'
  let (negative, cs) := splitSign word
  let whole ← decimalDigits? (cs.takeWhile isDigit)
  match cs.dropWhile isDigit with
  | '.' :: cs =>
    let fraction ← ungroup Char.isDigit (cs.takeWhile isDigit)
    let exponent ← exponent? (cs.dropWhile isDigit)
    some (.finite negative (numberOf 10 (whole ++ fraction)) (exponent - fraction.length))
  | [] => none
  | cs =>
    let exponent ← exponent? cs
    some (.finite negative (numberOf 10 whole) exponent)

/-- The number with a fraction or an exponent that a word writes. A number too great for double
precision is refused; one too small counts as minus infinity. -/
def real? (word : List Char) : Option Real :=
  match finite? word with
  | some (.finite negative digits exponent) =>
    if overflows digits exponent then if negative then some (.infinite true) else none
    else some (.finite negative digits exponent)
  | _ =>
    let (negative, cs) := splitSign word
    if cs = "inf".toList then some (.infinite negative)
    else if cs = "nan".toList then some .nan
    else none

def twoDigits? (low high : Nat) (a b : Char) : Option Nat :=
  let n := numberOf 10 [a, b]
  if a.isDigit && b.isDigit && low ≤ n && n ≤ high then some n else none

def isLeapYear (year : Nat) : Bool := year % 4 = 0 && (year % 100 ≠ 0 || year % 400 = 0)

def daysInMonth (year month : Nat) : Nat :=
  if month = 2 then if isLeapYear year then 29 else 28
  else if month = 4 ∨ month = 6 ∨ month = 9 ∨ month = 11 then 30
  else 31

def date? : Reader Date
  | a :: b :: c :: d :: '-' :: e :: f :: '-' :: g :: h :: rest => do
    let year := [a, b, c, d]
    let month ← twoDigits? 1 12 e f
    let day ← twoDigits? 1 31 g h
    if year.all Char.isDigit && day ≤ daysInMonth (numberOf 10 year) month then
      some (⟨numberOf 10 year, month, day⟩, rest)
    else none
  | _ => none

/-- Reads the fraction of a second, if there is one, in nanoseconds. Digits beyond are dropped. -/
def nanosecond? : Reader Nat
  | '.' :: cs =>
    let digits := cs.takeWhile Char.isDigit
    if digits.isEmpty then none
    else some (numberOf 10 ((digits ++ List.replicate 9 '0').take 9), cs.dropWhile Char.isDigit)
  | cs => some (0, cs)

/-- Reads a time of day. The sixtieth second is a leap second. -/
def time? : Reader Time
  | a :: b :: ':' :: c :: d :: ':' :: e :: f :: rest => do
    let hour ← twoDigits? 0 23 a b
    let minute ← twoDigits? 0 59 c d
    let second ← twoDigits? 0 60 e f
    let (nanosecond, rest) ← nanosecond? rest
    some (⟨hour, minute, second, nanosecond⟩, rest)
  | _ => none

def offset? : List Char → Option (Option Int)
  | [] => some none
  | ['Z'] => some (some 0)
  | ['z'] => some (some 0)
  | [sign, a, b, ':', c, d] => do
    let hour ← twoDigits? 0 23 a b
    let minute ← twoDigits? 0 59 c d
    let minutes : Int := hour * 60 + minute
    if sign = '+' then some (some minutes)
    else if sign = '-' then some (some (-minutes))
    else none
  | _ => none

def momentOn? (date : Date) (word : List Char) : Option Moment := do
  let (time, rest) ← time? word
  let offset ← offset? rest
  some { date := some date, time := some time, offset }

def isWordChar (c : Char) : Bool :=
  c.isAlphanum || c = '_' || c = '+' || c = '-' || c = '.' || c = ':'

def moment? (word rest : List Char) : Option (Moment × List Char) :=
  match date? word with
  | some (date, []) =>
    match rest with
    | ' ' :: more =>
      match momentOn? date (more.takeWhile isWordChar) with
      | some moment => some (moment, more.dropWhile isWordChar)
      | none => some ({ date := some date }, rest)
    | _ => some ({ date := some date }, rest)
  | some (date, mark :: word) =>
    if mark = 'T' || mark = 't' then (momentOn? date word).map (·, rest) else none
  | none =>
    match time? word with
    | some (time, []) => some ({ time := some time }, rest)
    | _ => none

def word? : Reader Value := fun cs =>
  let word := cs.takeWhile isWordChar
  let rest := cs.dropWhile isWordChar
  if word = "true".toList then some (.boolean true, rest)
  else if word = "false".toList then some (.boolean false, rest)
  else
    match moment? word rest with
    | some (moment, rest) => some (.moment moment, rest)
    | none =>
      match integer? word with
      | some n => some (.integer n, rest)
      | none => (real? word).map fun x => (.real x, rest)

end TickWorld.Toml
