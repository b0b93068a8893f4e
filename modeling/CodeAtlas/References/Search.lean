import CodeAtlas.Corpus
import CodeAtlas.References.Basic

/-! # Searching for references

Every line of the corpus that mentions a name as a whole word is its definition or a reference. The
definition is where a hint says, if that line still mentions the name; else it is the first line
with the shape of a declaration.
-/
namespace CodeAtlas.References
open Text

/-- Where a name is said to be defined, by file and line. -/
abbrev Hint := String → Option (String × Int)

/-! ## Shapes of declarations -/

def declaringWords : List String :=
  ["func", "type", "var", "const", "class", "def", "let", "function", "interface", "struct", "enum"]

def placesBehindBlanks : List Char → List (List Char)
  | [] => []
  | c :: rest => if isBlank c then rest :: placesBehindBlanks rest else []

/-- Whether the name stands at this place and a word ends or begins behind it. -/
def endsWordAt (name text : List Char) : Bool :=
  match after? name text with
  | some rest => isWordEdge name.getLast? rest.head?
  | none => false

def namedBehindBlanks (name text : List Char) : Bool :=
  (placesBehindBlanks text).any (endsWordAt name)

/-- The text behind a nonempty list of receivers in parentheses. -/
def behindReceiver? (text : List Char) : Option (List Char) := do
  let inside ← literal "(" (← blanks text)
  let (receiver, rest) ← cutAt? ')' inside
  if receiver.isEmpty then none else some rest

def declaresAt (name text : List Char) : Bool :=
  declaringWords.any (fun word => match literal word text with
    | some rest => namedBehindBlanks name rest
    | none => false) ||
  match (literal "func" text).bind behindReceiver? with
  | some rest => namedBehindBlanks name rest
  | none => false

def declares (name line : List Char) : Bool := (places line).any (declaresAt name)

/-! ## The search -/

def mention (path : String) (number : Nat) (line : List Char) (isDefinition : Bool) : Mention :=
  { path, line := number, content := String.ofList (trim line), isDefinition }

/-- The definition that a hint gives, if its line mentions the name. -/
def hinted (tree : FileTree) (c : Corpus) (name : List Char) (hint : String × Int) :
    Logged (Option Mention) := do
  let (path, number) := hint
  if !c.paths.contains path then return none
  else match ← c.readText tree path with
    | none => return none
    | some text =>
      let found := if 0 < number then (lines text)[number.toNat - 1]? else none
      match found.filter (mentions name) with
      | some line => return some (mention path number.toNat line true)
      | none => ⟨none, [.staleHint path number]⟩

/-- What a search is for: a name, at most `limit` references, and the definition if it is known from
the start. -/
structure Request where
  name : List Char
  limit : Nat
  known : Option Mention
  deriving DecidableEq, Repr

structure Found where
  definition : Option Mention
  references : List Mention := []
  deriving DecidableEq, Repr

def Request.isDone (q : Request) (found : Found) : Bool :=
  q.limit ≤ found.references.length && found.definition.isSome

def Request.addReference (q : Request) (found : Found) (m : Mention) : Found :=
  if found.references.length < q.limit then { found with references := found.references ++ [m] }
  else found

def Request.line (q : Request) (path : String) (found : Found) (number : Nat) (line : List Char) :
    Found :=
  if !mentions q.name line then found
  else match q.known with
    | some d =>
      if d.path = path ∧ d.line = number then found
      else q.addReference found (mention path number line false)
    | none =>
      if found.definition.isNone && declares q.name line then
        { found with definition := some (mention path number line true) }
      else q.addReference found (mention path number line false)

def Request.linesFrom (q : Request) (path : String) : Nat → List (List Char) → Found → Found
  | _, [], found => found
  | number, line :: rest, found =>
    q.linesFrom path (number + 1) rest (q.line path found number line)

def Request.files (tree : FileTree) (c : Corpus) (q : Request) :
    List String → Found → Logged Found
  | [], found => pure found
  | path :: rest, found => do
    if q.isDone found then return found
    else match ← c.readText tree path with
      | none => q.files tree c rest found
      | some text => q.files tree c rest (q.linesFrom path 1 (lines text) found)

/-- The definition of a name and at most `limit` references to it; none for the empty name. A
negative limit counts as zero. -/
def search (tree : FileTree) (c : Corpus) (name : String) (limit : Int) (hint : Hint) :
    Logged References := do
  if name.isEmpty then return { symbol := name }
  else
    let known ← match hint name with
      | some place => hinted tree c name.toList place
      | none => pure none
    let q : Request := { name := name.toList, limit := limit.toNat, known }
    let found ← q.files tree c c.paths { definition := known }
    return { symbol := name, definition := found.definition, references := found.references,
             total := found.references.length }

end CodeAtlas.References
