/-!
# TOML values

A document is a table. While it is read, tables that were not written out, but are implied by a
longer key or header, can still grow; a finished value has no trace of how its tables were written.
-/

namespace SchemaDocs.Toml

/-- A value. Floats and dates are kept as written. -/
inductive Value where
  | string (text : String)
  | integer (value : Int)
  | float (text : String)
  | boolean (value : Bool)
  | date (text : String)
  | array (items : List Value)
  | table (entries : List (String × Value))
deriving Repr, Inhabited

abbrev Table := List (String × Value)

/-- Something under a key of a document in progress. A table is implied if no header of its own and
no braces wrote it, and dotted if a key with dots implied it. -/
inductive Item where
  | value (value : Value)
  | table (implied dotted : Bool) (entries : List (String × Item))
  | tables (elements : List (List (String × Item)))
deriving Repr, Inhabited

abbrev Items := List (String × Item)

mutual

def Item.toValue : Item → Value
  | .value v => v
  | .table _ _ entries => .table (Item.toEntries entries)
  | .tables elements => .array (Item.toTables elements)

def Item.toEntries : List (String × Item) → Table
  | [] => []
  | (key, item) :: entries => (key, item.toValue) :: Item.toEntries entries

def Item.toTables : List (List (String × Item)) → List Value
  | [] => []
  | entries :: elements => .table (Item.toEntries entries) :: Item.toTables elements

end

namespace Items

/-- Puts an item under a key, in the place of an item there. -/
def put (key : String) (item : Item) : Items → Items
  | [] => [(key, item)]
  | (k, old) :: entries => if k = key then (k, item) :: entries else (k, old) :: put key item entries

/-- Changes the table at a path and makes the tables on the way that are missing. The last table of
an array stands for the array. `byDots` tells that a key with dots leads the way, which may not pass
through a table that was written out; `change` learns whether the table is dotted. -/
def change? (byDots : Bool) (change : (dotted : Bool) → Items → Option Items) :
    (path : List String) → (dotted : Bool) → Items → Option Items
  | [], dotted, entries => change dotted entries
  | key :: path, _, entries =>
    match entries.lookup key with
    | none => (change? byDots change path byDots []).map fun inner => entries.put key (.table true byDots inner)
    | some (.value _) => none
    | some (.table implied dotted inner) =>
      if byDots && !implied then none
      else (change? byDots change path dotted inner).map fun inner => entries.put key (.table implied dotted inner)
    | some (.tables elements) =>
      match elements.getLast? with
      | none => none
      | some last =>
        (change? byDots change path false last).map fun last => entries.put key (.tables (elements.dropLast ++ [last]))

/-- Adds a value under a key that may have dots: `path` is all but its last part. No value is
replaced, and a dotted key adds to dotted tables only. -/
def insert? (path : List String) (key : String) (value : Value) (entries : Items) : Option Items :=
  change? true (fun dotted inner =>
    if dotted = path.isEmpty || (inner.lookup key).isSome then none else some (inner.put key (.value value))) path false entries

/-- Writes out the table that a header names. It may be implied so far, but not written out or
dotted. -/
def openTable? (path : List String) (key : String) (entries : Items) : Option Items :=
  change? false (fun _ inner =>
    match inner.lookup key with
    | none => some (inner.put key (.table false false []))
    | some (.table true false rest) => some (inner.put key (.table false false rest))
    | some _ => none) path false entries

/-- Appends a table to the array that a header names. -/
def appendTable? (path : List String) (key : String) (entries : Items) : Option Items :=
  change? false (fun _ inner =>
    match inner.lookup key with
    | none => some (inner.put key (.tables [[]]))
    | some (.tables elements) => some (inner.put key (.tables (elements ++ [[]])))
    | some _ => none) path false entries

end Items

end SchemaDocs.Toml
