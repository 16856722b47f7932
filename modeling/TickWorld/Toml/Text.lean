namespace TickWorld.Toml

abbrev Reader (α : Type) := List Char → Option (α × List Char)

def isBeyondAscii (c : Char) : Bool := 0x80 ≤ c.val

def isPrintable (c : Char) : Bool :=
  c = '\t' || (0x20 ≤ c.val && c.val ≤ 0x7E) || isBeyondAscii c

def isPlain (c : Char) : Bool := isPrintable c && c ≠ '"' && c ≠ '\\'

def isLiteral (c : Char) : Bool := isPrintable c && c ≠ '\''

def isHexDigit (c : Char) : Bool :=
  c.isDigit || ('a' ≤ c && c ≤ 'f') || ('A' ≤ c && c ≤ 'F')

def digitValue (c : Char) : Nat :=
  if c.isDigit then c.toNat - '0'.toNat
  else if 'a' ≤ c then c.toNat - 'a'.toNat + 10
  else c.toNat - 'A'.toNat + 10

def numberOf (base : Nat) (digits : List Char) : Nat :=
  digits.foldl (fun n c => base * n + digitValue c) 0

def escaped? : Char → Option Char
  | 'b' => some '\x08'
  | 't' => some '\t'
  | 'n' => some '\n'
  | 'f' => some '\x0c'
  | 'r' => some '\r'
  | '"' => some '"'
  | '\\' => some '\\'
  | _ => none

/-- The character that hexadecimal digits name. Surrogates are no characters. -/
def scalar? (digits : List Char) : Option Char :=
  let n := numberOf 16 digits
  if digits.all isHexDigit && n.isValidChar then some (Char.ofNat n) else none

def escape? : Reader Char
  | 'u' :: a :: b :: c :: d :: rest => (scalar? [a, b, c, d]).map (·, rest)
  | 'U' :: a :: b :: c :: d :: e :: f :: g :: h :: rest =>
    (scalar? [a, b, c, d, e, f, g, h]).map (·, rest)
  | c :: rest => (escaped? c).map (·, rest)
  | [] => none

theorem length_escape? {cs rest : List Char} {c : Char} (h : escape? cs = some (c, rest)) :
    rest.length < cs.length := by
  unfold escape? at h
  split at h <;> simp only [Option.map_eq_some_iff, Prod.mk.injEq, reduceCtorEq] at h
  all_goals
    obtain ⟨_, _, _, rfl⟩ := h
    simp only [List.length_cons]
    omega

def dropBlank : List Char → List Char
  | ' ' :: cs => dropBlank cs
  | '\t' :: cs => dropBlank cs
  | '\n' :: cs => dropBlank cs
  | '\r' :: '\n' :: cs => dropBlank cs
  | cs => cs

theorem length_dropBlank (cs : List Char) : (dropBlank cs).length ≤ cs.length := by
  fun_induction dropBlank cs with
  | case1 cs ih => exact Nat.le_succ_of_le ih
  | case2 cs ih => exact Nat.le_succ_of_le ih
  | case3 cs ih => exact Nat.le_succ_of_le ih
  | case4 cs ih => exact Nat.le_succ_of_le (Nat.le_succ_of_le ih)
  | case5 => exact Nat.le_refl _

/-- Reads a line end with the blanks around it, which a backslash before it removes from a text of
several lines. -/
def dropContinuation? : List Char → Option (List Char)
  | ' ' :: cs => dropContinuation? cs
  | '\t' :: cs => dropContinuation? cs
  | '\n' :: cs => some (dropBlank cs)
  | '\r' :: '\n' :: cs => some (dropBlank cs)
  | _ => none

theorem length_dropContinuation? {cs rest : List Char} (h : dropContinuation? cs = some rest) :
    rest.length < cs.length := by
  fun_induction dropContinuation? cs with
  | case1 cs ih => have := ih h; simp only [List.length_cons]; omega
  | case2 cs ih => have := ih h; simp only [List.length_cons]; omega
  | case3 cs =>
    cases h
    have := length_dropBlank cs
    simp only [List.length_cons]
    omega
  | case4 cs =>
    cases h
    have := length_dropBlank cs
    simp only [List.length_cons]
    omega
  | case5 => cases h

/-- Reads a text of one line up to its closing double quote. The characters read so far come in
reverse. -/
def basicText (read : List Char) (cs : List Char) : Option (String × List Char) :=
  match cs with
  | [] => none
  | '"' :: rest => some (String.ofList read.reverse, rest)
  | '\\' :: rest =>
    match h : escape? rest with
    | none => none
    | some (c, rest') =>
      have := length_escape? h
      basicText (c :: read) rest'
  | c :: rest => if isPlain c then basicText (c :: read) rest else none
termination_by cs.length

def literalText (read : List Char) : Reader String
  | [] => none
  | '\'' :: rest => some (String.ofList read.reverse, rest)
  | c :: rest => if isLiteral c then literalText (c :: read) rest else none

def basicLines (read : List Char) (cs : List Char) : Option (String × List Char) :=
  match cs with
  | [] => none
  | '"' :: '"' :: '"' :: '"' :: '"' :: rest =>
    some (String.ofList ('"' :: '"' :: read).reverse, rest)
  | '"' :: '"' :: '"' :: '"' :: rest => some (String.ofList ('"' :: read).reverse, rest)
  | '"' :: '"' :: '"' :: rest => some (String.ofList read.reverse, rest)
  | '"' :: rest => basicLines ('"' :: read) rest
  | '\n' :: rest => basicLines ('\n' :: read) rest
  | '\r' :: '\n' :: rest => basicLines ('\n' :: read) rest
  | '\\' :: rest =>
    match h : dropContinuation? rest with
    | some rest' =>
      have := length_dropContinuation? h
      basicLines read rest'
    | none =>
      match h : escape? rest with
      | none => none
      | some (c, rest') =>
        have := length_escape? h
        basicLines (c :: read) rest'
  | c :: rest => if isPlain c then basicLines (c :: read) rest else none
termination_by cs.length

def literalLines (read : List Char) : Reader String
  | [] => none
  | '\'' :: '\'' :: '\'' :: '\'' :: '\'' :: rest =>
    some (String.ofList ('\'' :: '\'' :: read).reverse, rest)
  | '\'' :: '\'' :: '\'' :: '\'' :: rest => some (String.ofList ('\'' :: read).reverse, rest)
  | '\'' :: '\'' :: '\'' :: rest => some (String.ofList read.reverse, rest)
  | '\'' :: rest => literalLines ('\'' :: read) rest
  | '\n' :: rest => literalLines ('\n' :: read) rest
  | '\r' :: '\n' :: rest => literalLines ('\n' :: read) rest
  | c :: rest => if isLiteral c then literalLines (c :: read) rest else none

def dropFirstLineEnd : List Char → List Char
  | '\n' :: rest => rest
  | '\r' :: '\n' :: rest => rest
  | cs => cs

def text? : Reader String
  | '"' :: '"' :: '"' :: rest => basicLines [] (dropFirstLineEnd rest)
  | '\'' :: '\'' :: '\'' :: rest => literalLines [] (dropFirstLineEnd rest)
  | '"' :: rest => basicText [] rest
  | '\'' :: rest => literalText [] rest
  | _ => none

def isBareKey (c : Char) : Bool := c.isAlphanum || c = '_' || c = '-'

def simpleKey? : Reader String
  | '"' :: rest => basicText [] rest
  | '\'' :: rest => literalText [] rest
  | cs =>
    let key := cs.takeWhile isBareKey
    if key.isEmpty then none else some (String.ofList key, cs.dropWhile isBareKey)

def isSpace (c : Char) : Bool := c = ' ' || c = '\t'

def skipSpace (cs : List Char) : List Char := cs.dropWhile isSpace

end TickWorld.Toml
