namespace TickWorld.Toml

/-- A number with a fraction or an exponent: `digits` times ten to the power `exponent`, infinity,
or no number at all. -/
inductive Real where
  | finite (negative : Bool) (digits : Nat) (exponent : Int)
  | infinite (negative : Bool)
  | nan

structure Date where
  year : Nat
  month : Nat
  day : Nat

structure Time where
  hour : Nat
  minute : Nat
  second : Nat
  nanosecond : Nat

/-- A date, a time of day, or both, with the distance from universal time in minutes if given. -/
structure Moment where
  date : Option Date := none
  time : Option Time := none
  offset : Option Int := none

/-- How a table came into being. -/
inductive Origin where
  /-- By a header of its own. -/
  | header
  /-- By braces, which hold all of its entries. -/
  | braces
  /-- By the header of a table inside it. -/
  | implied
  /-- By a dotted key. -/
  | dotted
deriving DecidableEq

inductive Value where
  | string (s : String)
  | integer (n : Int)
  | real (x : Real)
  | boolean (b : Bool)
  | moment (m : Moment)
  | array (items : List Value)
  | table (origin : Origin) (entries : List (String × Value))
  /-- An array of tables made by double-bracketed headers, the latest table first. -/
  | tables (items : List (List (String × Value)))

abbrev Entries := List (String × Value)

namespace Entries

def put (entries : Entries) (key : String) (value : Value) : Entries :=
  entries.map fun entry => if entry.1 = key then (key, value) else entry

def add? (entries : Entries) (key : String) (value : Value) : Option Entries :=
  match entries.lookup key with
  | some _ => none
  | none => some (entries ++ [(key, value)])

/-- Changes the table that a path leads to from a table with the given origin and entries. Tables
that are missing on the way are created, with the origin `created`. A path leads through the latest
table of an array of tables. It does not lead into braces, nor, where dotted keys are followed, into
a table that has a header. -/
def follow (created : Origin) (f : Origin → Entries → Option Entries) :
    (path : List String) → Origin → Entries → Option Entries
  | [], origin, entries => f origin entries
  | key :: path, _, entries =>
    match entries.lookup key with
    | none =>
      (follow created f path created []).map fun inner => entries ++ [(key, .table created inner)]
    | some (.table origin inner) =>
      if origin = .braces ∨ (created = .dotted ∧ origin = .header) then none
      else (follow created f path origin inner).map fun inner =>
        entries.put key (.table origin inner)
    | some (.tables (latest :: earlier)) =>
      (follow created f path .header latest).map fun latest =>
        entries.put key (.tables (latest :: earlier))
    | some _ => none

/-- Gives a value to the last key of a dotted key. A table on the way may have been created only by
dotted keys. -/
def assign? (entries : Entries) (path : List String) (key : String) (value : Value) :
    Option Entries :=
  follow .dotted (fun origin inner =>
    if path.isEmpty ∨ origin = .dotted then inner.add? key value else none) path .header entries

/-- Opens the table of a header. It must be new, or known only as the parent of other tables. -/
def openTable? (entries : Entries) (path : List String) (key : String) : Option Entries :=
  follow .implied (fun _ inner =>
    match inner.lookup key with
    | none => some (inner ++ [(key, .table .header [])])
    | some (.table .implied known) => some (inner.put key (.table .header known))
    | some _ => none) path .header entries

def openTables? (entries : Entries) (path : List String) (key : String) : Option Entries :=
  follow .implied (fun _ inner =>
    match inner.lookup key with
    | none => some (inner ++ [(key, .tables [[]])])
    | some (.tables items) => some (inner.put key (.tables ([] :: items)))
    | some _ => none) path .header entries

end Entries

end TickWorld.Toml
