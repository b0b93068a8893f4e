import CodeAtlas.Python.Parser

/-! # The grammar of Python: what the rules share

Rules refer to one another through a record of parsers. Of an expression only one thing is kept: the
places where it could be assigned to. Of a statement, the imports in it.
-/
namespace CodeAtlas.Python

/-- An import as it is written. The names are those of an import from a module, without the star;
the level is the number of dots in front. -/
structure Import where
  line : Nat
  module : String
  names : List String := []
  level : Nat := 0
  deriving DecidableEq, Repr

/-- Where an expression may stand as a target. -/
structure Target where
  /-- On the left of an assignment, or in the head of a loop. -/
  assigned : Bool := false
  /-- On the left of an annotation or of an assignment with an operator. -/
  single : Bool := false
  /-- In a deletion. -/
  deleted : Bool := false
  starred : Bool := false
  deriving DecidableEq, Repr

namespace Target

def value : Target := {}

def simple : Target := { assigned := true, single := true, deleted := true }

def star (t : Target) : Target := { assigned := t.assigned && !t.starred, starred := true }

def sequence (ts : List Target) : Target :=
  { assigned := ts.all (·.assigned), deleted := ts.all (·.deleted) }

end Target

/-- The parsers that refer to one another. -/
structure Grammar where
  expression : Parser Target
  disjunction : Parser Target
  inversion : Parser Target
  sum : Parser Target
  factor : Parser Target
  primary : Parser Target
  suffixes : Target → Parser Target
  pattern : Parser Unit
  statement : Parser (List Import)
  /-- Statements up to the end of their block. -/
  statements : Parser (List Import)

end CodeAtlas.Python
