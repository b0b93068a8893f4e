/-! # What a Go source file declares

The tree of a source file as far as its declarations go: functions with their parameter lists,
types, constants and variables, and imports. Groups of specifications are kept, and so are comments
and commas where they count as members of a list.
-/
namespace CodeAtlas.Go

inductive TypeShape where
  | named (name : String)
  | generic (base : TypeShape)
  /-- A pointer to a type, or a type in parentheses, with or without a comment in between. -/
  | wrapped (commented : Bool) (inner : TypeShape)
  | struct
  | interface
  | other
  deriving DecidableEq, Repr

structure TypeExpr where
  text : String
  shape : TypeShape
  deriving DecidableEq, Repr

inductive Member where
  | comment
  | parameter (names : List String) (variadic : Bool) (type : TypeExpr)
  deriving DecidableEq, Repr

inductive Result where
  | nothing
  | list (members : List Member)
  | single (type : TypeExpr)
  deriving DecidableEq, Repr

/-- A function, or a method if there is a receiver. -/
structure Function where
  name : String
  receiver : Option (List Member)
  parameters : List Member
  result : Result
  line : Nat
  endLine : Nat
  deriving DecidableEq, Repr

structure TypeSpec where
  name : String
  isAlias : Bool
  shape : TypeShape
  line : Nat
  endLine : Nat
  deriving DecidableEq, Repr

structure BoundName where
  text : String
  line : Nat
  deriving DecidableEq, Repr

/-- A specification of constants or variables: the names, all but the first with the line of the
comma in front of them. -/
structure ValueSpec where
  first : BoundName
  others : List (Nat × BoundName)
  deriving DecidableEq, Repr

/-- What stands behind the keyword of a declaration: one specification, or some in parentheses. -/
inductive Specs (α : Type) where
  | single (spec : α)
  | group (specs : List α)
  deriving DecidableEq, Repr

inductive Item where
  | function (f : Function)
  | types (specs : Specs TypeSpec)
  | constants (specs : Specs ValueSpec)
  | variables (specs : Specs ValueSpec)
  /-- The source text of the imported paths, quotes included. -/
  | imports (paths : Specs String)
  /-- A package clause or a statement. -/
  | other
  deriving DecidableEq, Repr

/-- A source file: the items that could be read, and whether that was all of it. -/
structure SourceFile where
  items : List Item
  complete : Bool
  deriving DecidableEq, Repr

end CodeAtlas.Go
