/-!
# Tables of settings

The values of a file in the notation TOML, and how its lines build up the tables. A table may be
opened by a header only once, and what is written as one value cannot be added to later.
-/

namespace BusReference.Toml

/-- How a table came about. -/
inductive Origin where
  /-- It has a header of its own, or is the whole file. -/
  | header
  /-- It is on the way to a table with a header. -/
  | implied
  /-- It is on the way to a dotted key. -/
  | dotted
  /-- It is written as a value between braces. -/
  | braces
  deriving DecidableEq, Repr

/-- A value of a file. -/
inductive Value where
  | string (s : String)
  /-- A number or a truth value. -/
  | scalar
  | moment
  | array (items : List Value)
  | table (origin : Origin) (fields : List (String × Value))
  /-- The tables under a repeated header, each in its place. -/
  | tables (items : List Value)
  deriving Repr

/-- The keys of a table with their values. -/
abbrev Fields := List (String × Value)

namespace Fields

/-- Changes what stands under a key, if the change allows what stands there. -/
def change (key : String) (f : Option Value → Option Value) : Fields → Option Fields
  | [] => (f none).map fun v => [(key, v)]
  | (k, v) :: fields =>
    if k = key then (f (some v)).map fun v => (k, v) :: fields
    else (change key f fields).map ((k, v) :: ·)

/-- Adds a key, which must be new. -/
def add (key : String) (v : Value) (fields : Fields) : Option Fields :=
  change key (fun old => if old.isSome then none else some v) fields

/-- Whether a path may go through a table. A path to a dotted key goes only through tables that
have no header. -/
def passes (dotted : Bool) : Origin → Bool
  | .braces => false
  | .header => !dotted
  | .implied | .dotted => true

/-- Changes the table at the end of a path. Tables that are missing on the way are created, and of
the tables under a repeated header the path goes through the last one. -/
def within (dotted : Bool) (f : Origin → Fields → Option Fields) :
    List String → Origin → Fields → Option Fields
  | [], origin, fields => f origin fields
  | key :: keys, _, fields =>
    let created := if dotted then Origin.dotted else Origin.implied
    change key (fun
      | none => (within dotted f keys created []).map (.table created)
      | some (.table origin inner) =>
        if passes dotted origin then (within dotted f keys origin inner).map (.table origin)
        else none
      | some (.tables items) =>
        match items.getLast? with
        | some (.table origin inner) =>
          (within dotted f keys origin inner).map fun inner =>
            .tables (items.dropLast ++ [.table origin inner])
        | _ => none
      | some _ => none) fields

/-- Adds a value under a dotted key. The tables on the way to it are kept apart from those that have
a header. -/
def addDotted (keys : List String) (key : String) (v : Value) (origin : Origin) (fields : Fields) :
    Option Fields :=
  within true (fun origin fields =>
    if keys.isEmpty || origin == .dotted then add key v fields else none) keys origin fields

/-- Opens the table of a header. It may have been on the way to another one. -/
def openTable (keys : List String) (key : String) (fields : Fields) : Option Fields :=
  within false (fun _ fields =>
    change key (fun
      | none => some (.table .header [])
      | some (.table .implied inner) => some (.table .header inner)
      | some _ => none) fields) keys .header fields

/-- Opens another table of a repeated header. -/
def openRepeated (keys : List String) (key : String) (fields : Fields) : Option Fields :=
  within false (fun _ fields =>
    change key (fun
      | none => some (.tables [.table .header []])
      | some (.tables items) => some (.tables (items ++ [.table .header []]))
      | some _ => none) fields) keys .header fields

/-- Adds a value under a dotted key in the table that the last header opened. -/
def addIn (table keys : List String) (key : String) (v : Value) (fields : Fields) : Option Fields :=
  within false (fun origin fields => addDotted keys key v origin fields) table .header fields

end Fields

end BusReference.Toml
