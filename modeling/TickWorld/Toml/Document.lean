import TickWorld.Toml.Scalar

namespace TickWorld.Toml

def nestingLimit : Nat := 80

def skipComment : List Char → List Char
  | '#' :: cs => cs.dropWhile isPrintable
  | cs => cs

def lineEnd? : List Char → Option (List Char)
  | [] => some []
  | '\n' :: cs => some cs
  | '\r' :: '\n' :: cs => some cs
  | _ => none

def lineRest? (cs : List Char) : Option (List Char) := lineEnd? (skipComment (skipSpace cs))

def skipFiller (cs : List Char) : List Char :=
  match cs with
  | '#' :: rest =>
    have : (rest.dropWhile isPrintable).length ≤ rest.length := (List.dropWhile_sublist _).length_le
    skipFiller (rest.dropWhile isPrintable)
  | ' ' :: rest => skipFiller rest
  | '\t' :: rest => skipFiller rest
  | '\n' :: rest => skipFiller rest
  | '\r' :: '\n' :: rest => skipFiller rest
  | _ => cs
termination_by cs.length

/-- Reads a key whose parts are divided by dots, and so the names of the tables on the way and the
last name. At most `n` parts are read. -/
def dottedKey? : (n : Nat) → Reader (List String × String)
  | 0, _ => none
  | n + 1, cs => do
    let (key, cs) ← simpleKey? (skipSpace cs)
    match skipSpace cs with
    | '.' :: cs =>
      let ((path, last), cs) ← dottedKey? n cs
      some ((key :: path, last), cs)
    | cs => some (([], key), cs)

def key? : Reader (List String × String) := dottedKey? (nestingLimit - 1)

/-- Reads the items of an array after its opening bracket, of which at most `n` follow. -/
def items? (value : Reader Value) : (n : Nat) → (read : List Value) → Reader (List Value)
  | 0, _, _ => none
  | n + 1, read, cs =>
    match skipFiller cs with
    | ']' :: cs => some (read.reverse, cs)
    | cs => do
      let (item, cs) ← value cs
      match skipFiller cs with
      | ',' :: cs => items? value n (item :: read) cs
      | ']' :: cs => some ((item :: read).reverse, cs)
      | _ => none

def keyValue? (value : Reader Value) : Reader ((List String × String) × Value) := fun cs => do
  let (key, cs) ← key? cs
  match cs with
  | '=' :: cs =>
    let (v, cs) ← value (skipSpace cs)
    some ((key, v), cs)
  | _ => none

def bracedEntries? (value : Reader Value) : (n : Nat) → (read : Entries) → Reader Entries
  | 0, _, _ => none
  | n + 1, read, cs => do
    let (((path, key), v), cs) ← keyValue? value cs
    let read ← read.assign? path key v
    match skipSpace cs with
    | ',' :: cs => bracedEntries? value n read cs
    | '}' :: cs => some (read, cs)
    | _ => none

def flat? : Reader Value := fun cs =>
  match text? cs with
  | some (s, cs) => some (.string s, cs)
  | none => word? cs

/-- Reads a value in which brackets and braces nest at most `depth` levels. -/
def value? : (depth : Nat) → Reader Value
  | depth + 1, '[' :: cs => (items? (value? depth) cs.length [] cs).map fun (items, cs) =>
    (.array items, cs)
  | depth + 1, '{' :: cs =>
    match skipSpace cs with
    | '}' :: cs => some (.table .braces [], cs)
    | cs => (bracedEntries? (value? depth) cs.length [] cs).map fun (entries, cs) =>
      (.table .braces entries, cs)
  | _, cs => flat? cs

def header? (close : List Char) : Reader (List String × String) := fun cs => do
  let (key, cs) ← key? cs
  if close.isPrefixOf cs then some (key, cs.drop close.length) else none

/-- A document while it is read: its table so far and the path of the table that is open. -/
structure Draft where
  entries : Entries := []
  opened : List String := []

def Draft.assign? (d : Draft) (path : List String) (key : String) (v : Value) : Option Draft :=
  (Entries.follow .implied (fun _ inner => inner.assign? path key v) d.opened .header
    d.entries).map fun entries => { d with entries }

def line? (d : Draft) (cs : List Char) : Option (Draft × List Char) :=
  match skipSpace cs with
  | '[' :: '[' :: cs => do
    let ((path, key), cs) ← header? [']', ']'] cs
    let entries ← d.entries.openTables? path key
    let cs ← lineRest? cs
    some (⟨entries, path ++ [key]⟩, cs)
  | '[' :: cs => do
    let ((path, key), cs) ← header? [']'] cs
    let entries ← d.entries.openTable? path key
    let cs ← lineRest? cs
    some (⟨entries, path ++ [key]⟩, cs)
  | cs =>
    match lineRest? cs with
    | some cs => some (d, cs)
    | none => do
      let (((path, key), v), cs) ← keyValue? (value? (nestingLimit - 1)) cs
      let cs ← lineRest? cs
      let d ← d.assign? path key v
      some (d, cs)

def lines? : (n : Nat) → Draft → List Char → Option Entries
  | _, d, [] => some d.entries
  | 0, _, _ :: _ => none
  | n + 1, d, cs =>
    match line? d cs with
    | none => none
    | some (d, cs) => lines? n d cs

/-- The table that a document writes. A byte order mark at its start is skipped. -/
def document? (text : String) : Option Entries :=
  let cs := match text.toList with
    | '\uFEFF' :: cs => cs
    | cs => cs
  lines? cs.length {} cs

end TickWorld.Toml
