import SchemaDocs.Toml.Document

/-!
# Records in TOML

A record is read from a table by the names of its fields, or from an array by their positions. What
it has beyond its fields is passed over. A date counts as a table without any of them.
-/

namespace SchemaDocs.Toml

inductive Record where
  | named (entries : Table)
  | listed (items : List Value)

namespace Record

def ofValue? : Value → Option Record
  | .table entries => some (.named entries)
  | .array items => some (.listed items)
  | .date _ => some (.named [])
  | _ => none

/-- The value of the field with a position and a key. -/
def field? (record : Record) (position : Nat) (key : String) : Option Value :=
  match record with
  | .named entries => entries.lookup key
  | .listed items => items[position]?

def required? {α : Type} (record : Record) (position : Nat) (key : String) (read : Value → Option α) : Option α :=
  (record.field? position key).bind read

def withDefault? {α : Type} (record : Record) (position : Nat) (key : String) (read : Value → Option α) (default : α) :
    Option α :=
  match record.field? position key with
  | none => some default
  | some value => read value

def optional? {α : Type} (record : Record) (position : Nat) (key : String) (read : Value → Option α) :
    Option (Option α) :=
  match record.field? position key, record with
  | some value, _ => (read value).map some
  | none, .named _ => some none
  | none, .listed _ => none

end Record

namespace Value

def text? : Value → Option String
  | .string text => some text
  | _ => none

def texts? : Value → Option (List String)
  | .array items => items.mapM text?
  | _ => none

def nat? : Value → Option Nat
  | .integer n => if 0 ≤ n then some n.toNat else none
  | _ => none

def records? : Value → Option (List Record)
  | .array items => items.mapM Record.ofValue?
  | _ => none

end Value

end SchemaDocs.Toml
