import CodeAtlas.Value

/-! # TOML documents

A document is built statement by statement. A table remembers how it came to be, since that decides
who may still add to it: a table that is only implied by the names of others may be declared once, a
table made by dotted keys may be extended in the same section only, and a value that was written out
is closed.
-/
namespace CodeAtlas.Toml

abbrev Key := List String

inductive Opening where
  /-- As the parent of a declared table. -/
  | implied
  /-- As the parent of a key with dots, in the given section. -/
  | dotted (part : Nat)
  | declared
  deriving DecidableEq, Repr

inductive Node where
  | value (v : Value)
  | table (opening : Opening) (fields : List (String × Node))
  /-- Tables of one name, of which the last is open. -/
  | tables (items : List (List (String × Node)))

/-- The nodes of a table in the order in which their names were first used. -/
abbrev Fields := List (String × Node)

def Fields.set (fields : Fields) (name : String) (node : Node) : Fields :=
  match fields with
  | [] => [(name, node)]
  | (other, old) :: rest =>
    if other = name then (name, node) :: rest else (other, old) :: Fields.set rest name node

/-- Changes the table that a key leads to. Tables on the way are entered, and made where they are
missing; of several tables of one name the last is meant. -/
def Fields.within (change : Fields → Option Fields) : Key → Fields → Option Fields
  | [], fields => change fields
  | name :: rest, fields => do
    match fields.lookup name with
    | none => return Fields.set fields name (.table .implied (← within change rest []))
    | some (.table opening inner) =>
      return Fields.set fields name (.table opening (← within change rest inner))
    | some (.tables items) =>
      let last ← items.getLast?
      return Fields.set fields name (.tables (items.dropLast ++ [← within change rest last]))
    | some (.value _) => none

def Fields.declare (name : String) (fields : Fields) : Option Fields :=
  match fields.lookup name with
  | none => some (fields.set name (.table .declared []))
  | some (.table .implied inner) => some (fields.set name (.table .declared inner))
  | _ => none

def Fields.extend (name : String) (fields : Fields) : Option Fields :=
  match fields.lookup name with
  | none => some (fields.set name (.tables [[]]))
  | some (.tables items) => some (fields.set name (.tables (items ++ [[]])))
  | _ => none

/-- Gives a value to a key that is new. The tables on the way belong to the given section. -/
def Fields.assign (part : Nat) (v : Value) : Key → Fields → Option Fields
  | [], _ => none
  | [name], fields => match fields.lookup name with
    | none => some (fields.set name (.value v))
    | some _ => none
  | name :: rest, fields => do
    match fields.lookup name with
    | none =>
      return Fields.set fields name (.table (.dotted part) (← assign part v rest []))
    | some (.table opening inner) =>
      if opening = .implied || opening = .dotted part then
        return Fields.set fields name (.table (.dotted part) (← assign part v rest inner))
      else none
    | some _ => none

inductive Statement where
  | table (key : Key)
  | tableOfArray (key : Key)
  | pair (key : Key) (v : Value)

/-- A document under construction: its fields, the table that is open and the number of headers so
far. -/
structure Document where
  fields : Fields := []
  header : Key := []
  sections : Nat := 0

namespace Document

def enter (d : Document) (key : Key) (last : String → Fields → Option Fields) :
    Option Document := do
  let name ← key.getLast?
  let fields ← Fields.within (last name) key.dropLast d.fields
  return { fields, header := key, sections := d.sections + 1 }

def add (d : Document) : Statement → Option Document
  | .table key => d.enter key Fields.declare
  | .tableOfArray key => d.enter key Fields.extend
  | .pair key v => do
    return { d with fields := ← Fields.within (Fields.assign d.sections v key) d.header d.fields }

end Document

mutual

def Node.toValue : Node → Value
  | .value v => v
  | .table _ fields => .table (fieldValues fields)
  | .tables items => .array (tableValues items)

def fieldValues : List (String × Node) → List (String × Value)
  | [] => []
  | (name, node) :: rest => (name, node.toValue) :: fieldValues rest

def tableValues : List (List (String × Node)) → List Value
  | [] => []
  | fields :: rest => .table (fieldValues fields) :: tableValues rest

end

end CodeAtlas.Toml
