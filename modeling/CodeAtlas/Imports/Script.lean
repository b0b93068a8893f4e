import CodeAtlas.Path

/-! # Imports of JavaScript and TypeScript

Module specifiers are read off single lines: the clause that names a source module, an import for
effect alone, and a call of `require`. Only relative specifiers lead to files.
-/
namespace CodeAtlas.Imports.Script
open Text

/-- The suffixes of JavaScript and TypeScript files, in the order in which they are tried. -/
def suffixes : List String := [".js", ".jsx", ".mjs", ".cjs", ".ts", ".tsx"]

def isMark (c : Char) : Bool := c == '\'' || c == '"'

/-- A quoted, non-empty specifier and what follows it; the two marks need not be the same. -/
def quoted? : List Char → Option (List Char × List Char)
  | [] => none
  | c :: rest =>
    if isMark c then
      match rest.span (!isMark ·) with
      | ([], _) => none
      | (_, []) => none
      | (specifier, _ :: rest) => some (specifier, rest)
    else none

def fromClause? (text : List Char) : Option (List Char) := do
  let (specifier, _) ← quoted? (← blanks (← literal "from" text))
  return specifier

/-- The specifier of an import or export at this place whose source module is named on the same
line. -/
def importFrom? (text : List Char) : Option (List Char) := do
  search fromClause? (← blanks (← (literal "import" text).or (literal "export" text)))

def sideEffect? (line : List Char) : Option (List Char) := do
  let (specifier, _) ← quoted? (← blanks (← literal "import" (trimStart line)))
  return specifier

def require? (text : List Char) : Option (List Char) := do
  let rest ← literal "(" (trimStart (← literal "require" text))
  let (specifier, rest) ← quoted? (trimStart rest)
  let _ ← literal ")" (trimStart rest)
  return specifier

/-- The specifiers of one line: at most one of each kind, in this order of kinds. -/
def lineSpecifiers (line : List Char) : List (List Char) :=
  [search importFrom? line, sideEffect? line, search require? line].filterMap id

def specifiers (text : List Char) : List String :=
  ((boundedLines text).flatMap lineSpecifiers).map String.ofList

/-- The paths that a relative specifier may mean, best first. -/
def candidates (importer specifier : String) : List String :=
  let target := Path.normalize (Path.join (Path.directory importer) specifier)
  target :: (suffixes.map (target ++ ·) ++ suffixes.map fun s => Path.join target ("index" ++ s))

def resolve (files : List String) (importer specifier : String) : Option String :=
  if startsWith "." specifier.toList then
    (candidates importer specifier).find? (files.contains ·)
  else none

end CodeAtlas.Imports.Script
