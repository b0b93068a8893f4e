import CodeAtlas.Symbol
import CodeAtlas.Text.Find

/-! # Declarations of JavaScript and TypeScript

What a line of code declares, judged by the line alone: a declaration at the outermost level, or a
member of a class.
-/
namespace CodeAtlas.Outline.Braced
open Text

/-- The name behind a keyword and blanks, after optional modifiers in the given order. -/
def namedAfter (modifiers : List String) (keyword : String) (text : List Char) :
    Option (List Char) := do
  let rest ← literal keyword (modifiers.foldl (fun rest m => skipWord m rest) text)
  let (name, _) ← word (← blanks rest)
  return name

/-- The name of a function; the star of a generator may stand in front of it, and blanks are
optional. -/
def functionName? (text : List Char) : Option (List Char) := do
  let rest ← literal "function" (["export", "default", "async"].foldl
      (fun r m => skipWord m r) text)
  let rest := trimStart rest
  let (name, _) ← word (trimStart ((literal "*" rest).getD rest))
  return name

/-- The shapes of outermost declarations in the order in which they are tried. The flag says that
the signature ends in front of the first brace. -/
def shapes : List (SymbolKind × (List Char → Option (List Char)) × Bool) :=
  let binding (keyword : String) := namedAfter ["export", "declare"] keyword
  [(.function, functionName?, false),
   (.classType, namedAfter ["export", "default", "abstract"] "class", true),
   (.interface, namedAfter ["export", "declare"] "interface", true),
   (.enumeration, namedAfter ["export", "declare", "const"] "enum", true),
   (.type, namedAfter ["export", "declare"] "type", false),
   (.constant, fun t => (binding "const" t).or ((binding "let" t).or (binding "var" t)), false)]

/-- The text in front of the first brace, unless that is the first character. -/
def cutAtBrace (text : List Char) : List Char :=
  match cutAt? '{' text with
  | some (c :: before, _) => trim (c :: before)
  | _ => text

def topLevel? (text : List Char) (line : Nat) : Option Symbol :=
  shapes.findSome? fun (kind, name?, cut) =>
    (name? text).map fun name =>
      { name := String.ofList name
        kind
        line
        exported := startsWith "export " text
        signature := String.ofList (if cut then cutAtBrace text else text) }

def keywords : List String :=
  ["if", "else", "for", "while", "do", "switch", "case", "break",
   "continue", "return", "throw", "try", "catch", "finally",
   "new", "delete", "typeof", "instanceof", "void", "in", "of",
   "class", "extends", "super", "import", "export", "default",
   "function", "const", "let", "var", "this", "true", "false", "null"]

def memberModifiers : List String :=
  ["public", "private", "protected", "static", "readonly", "abstract", "override", "async", "get",
   "set"]

def afterModifier? (text : List Char) : Option (List Char) :=
  memberModifiers.findSome? fun m => (literal m text).bind blanks

/-- The name of a member without modifiers: a star, a hash sign and a word, then an opening
bracket of parameters or type parameters. -/
def plainMemberName? (text : List Char) : Option (List Char) := do
  let text := trimStart ((literal "*" text).getD text)
  let hash := startsWith "#" text
  let (name, rest) ← word ((literal "#" text).getD text)
  let c ← (trimStart rest).head?
  if c = '<' || c = '(' then some (if hash then '#' :: name else name) else none

/-- The name of a member behind as many modifiers as possible, at most `count`. A modifier that
leaves no name behind it is itself the name. -/
def memberName? : (count : Nat) → List Char → Option (List Char)
  | 0, text => plainMemberName? text
  | count + 1, text =>
    match afterModifier? text with
    | some rest => (memberName? count rest).or (plainMemberName? text)
    | none => plainMemberName? text

def isConstructor (text : List Char) : Bool :=
  ((literal "constructor" text).bind (literal "(" <| trimStart ·)).isSome

def member? (text : List Char) (line : Nat) (owner : String) : Option Symbol :=
  if isConstructor text then
    some { name := "constructor", kind := .method, line, exported := true
           signature := String.ofList text, parent := owner }
  else do
    let name ← memberName? text.length text
    if keywords.contains (String.ofList name) then none
    else
      some { name := String.ofList name, kind := .method, line
             exported := !startsWith "_" name && !startsWith "#" name && !startsWith "private " text
             signature := String.ofList text, parent := owner }

def isImport (text : List Char) : Bool :=
  startsWith "import " text || startsWith "import\x7b" text || startsWith "require(" text

end CodeAtlas.Outline.Braced
