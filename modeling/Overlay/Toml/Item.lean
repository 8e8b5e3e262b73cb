/-!
# Items of a configuration text

The values that a TOML text describes, and the tables that its lines fill in one
after another.  A table remembers how it came to be, since that decides which
later lines may still add to it.
-/

set_option autoImplicit false

namespace Overlay.Toml

/-- A calendar day. -/
structure Day where
  year : Nat
  month : Nat
  day : Nat
  deriving DecidableEq, Repr

/-- A time of day. -/
structure TimeOfDay where
  hour : Nat
  minute : Nat
  second : Nat
  /-- The digits of the fraction of a second. -/
  fraction : List Char
  deriving DecidableEq, Repr

/-- A day, a time of day, or both, with an offset in minutes where one is given. -/
structure Moment where
  day : Option Day := none
  time : Option TimeOfDay := none
  offset : Option Int := none
  deriving DecidableEq, Repr

/-- A number with a fraction or an exponent, as it is written. -/
inductive Decimal where
  /-- The digits, taken as a whole number, times a power of ten. -/
  | finite (negative : Bool) (digits : Nat) (exponent : Int)
  | infinite (negative : Bool)
  | undefined
  deriving DecidableEq, Repr

/-- How a table came to be. -/
inductive Origin where
  /-- By a header of its own, or as the root. -/
  | header
  /-- As a stretch of a longer header. -/
  | implied
  /-- As a stretch of a dotted key. -/
  | dotted
  /-- As a value between braces. -/
  | inline
  deriving DecidableEq, Repr

/-- What a key stands for. -/
inductive Item where
  | text (value : String)
  | integer (value : Int)
  | decimal (value : Decimal)
  | boolean (value : Bool)
  | moment (value : Moment)
  | array (values : List Item)
  | table (origin : Origin) (entries : List (String × Item))
  /-- The tables that headers in double brackets have added, in order. -/
  | tables (elements : List (List (String × Item)))

/-- Keys with what they stand for, in the order they were written. -/
abbrev Table := List (String × Item)

namespace Table

/-- Let a key stand for another item. -/
def replace (table : Table) (key : String) (item : Item) : Table :=
  table.map fun entry => if entry.1 = key then (key, item) else entry

/-- Add a key, which has to be new. -/
def add? (table : Table) (key : String) (item : Item) : Option Table :=
  if (table.lookup key).isSome then none else some (table ++ [(key, item)])

/-- Change the table at the end of a path of keys.  Tables that are missing on the way
are created; `dotted` says whether the path comes from a dotted key.  A dotted key may
not pass through a table that has a header of its own, and no path may pass through a
value.  Among several tables under one key the last one is meant. -/
def within? (dotted : Bool) (change : Origin → Table → Option Table) :
    Origin → Table → List String → Option Table
  | origin, table, [] => change origin table
  | _, table, key :: rest =>
      match table.lookup key with
      | none =>
          let origin := if dotted then Origin.dotted else .implied
          (within? dotted change origin [] rest).map fun inner =>
            table ++ [(key, .table origin inner)]
      | some (.table origin inner) =>
          if origin = .inline || (dotted && origin = .header) then none
          else
            (within? dotted change origin inner rest).map fun inner =>
              table.replace key (.table origin inner)
      | some (.tables elements) =>
          match elements.getLast? with
          | none => none
          | some last =>
              (within? dotted change .header last rest).map fun last =>
                table.replace key (.tables (elements.dropLast ++ [last]))
      | some _ => none

/-- Set a dotted key.  The table that receives the last part of the key must have been
made by dotted keys if there are parts before it, and must not if there are none. -/
def set? (origin : Origin) (table : Table) (path : List String) (key : String) (item : Item) :
    Option Table :=
  within? true
    (fun origin table =>
      if decide (origin = .dotted) == path.isEmpty then none else table.add? key item)
    origin table path

/-- Open the table that a header names.  A table that longer headers have implied
becomes one with a header; any other item under that name stays in the way. -/
def openTable? (table : Table) (path : List String) (key : String) : Option Table :=
  within? false
    (fun _ table =>
      match table.lookup key with
      | none => some (table ++ [(key, .table .header [])])
      | some (.table .implied inner) => some (table.replace key (.table .header inner))
      | some _ => none)
    .header table path

/-- Add a table to those under the name that a header in double brackets gives. -/
def appendTable? (table : Table) (path : List String) (key : String) : Option Table :=
  within? false
    (fun _ table =>
      match table.lookup key with
      | none => some (table ++ [(key, .tables [[]])])
      | some (.tables elements) => some (table.replace key (.tables (elements ++ [[]])))
      | some _ => none)
    .header table path

end Table

end Overlay.Toml
