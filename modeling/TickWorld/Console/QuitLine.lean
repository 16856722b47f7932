import TickWorld.Text.Blank

namespace TickWorld.Console

/-- Splits the first line off, with its newline byte if it has one. -/
def splitLine : List UInt8 → List UInt8 × List UInt8
  | [] => ([], [])
  | b :: bytes =>
    if b = 0x0A then ([b], bytes)
    else
      let (line, rest) := splitLine bytes
      (b :: line, rest)

theorem length_splitLine (bytes : List UInt8) :
    (splitLine bytes).1.length + (splitLine bytes).2.length = bytes.length := by
  fun_induction splitLine bytes <;> simp_all <;> omega

theorem length_splitLine_cons (b : UInt8) (bytes : List UInt8) :
    0 < (splitLine (b :: bytes)).1.length := by
  unfold splitLine
  split <;> simp

def isQuit (line : String) : Bool := (Text.trim line.toList).map Char.toLower = "quit".toList

/-- Where reading ended: whether a quit line was found, and how many bytes were consumed. -/
structure Search where
  found : Bool
  consumed : Nat
deriving DecidableEq

/-- Reads lines up to the first quit line, the first line that is not UTF-8 or the end. Earlier
lines had `consumed` bytes. -/
def searchFrom (consumed : Nat) (bytes : List UInt8) : Search :=
  match bytes with
  | [] => ⟨false, consumed⟩
  | b :: rest =>
    let line := (splitLine (b :: rest)).1
    let consumed := consumed + line.length
    match String.fromUTF8? ⟨line.toArray⟩ with
    | none => ⟨false, consumed⟩
    | some text =>
      if isQuit text then ⟨true, consumed⟩
      else searchFrom consumed (splitLine (b :: rest)).2
termination_by bytes.length
decreasing_by
  have := length_splitLine (b :: rest)
  have := length_splitLine_cons b rest
  simp_all
  omega

def searchQuit (bytes : List UInt8) : Search := searchFrom 0 bytes

end TickWorld.Console
