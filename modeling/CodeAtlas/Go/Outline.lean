import CodeAtlas.Go.Grammar
import CodeAtlas.Symbol
import CodeAtlas.Text.CharClass

/-! # Outline of Go

The symbols of a source file are read off its declarations. A file that breaks the grammar has no
outline.
-/
namespace CodeAtlas.Go
open Text

/-- Whether a name is visible outside of its package: it begins with an upper-case letter. -/
def isExported (name : String) : Bool := name.toList.head?.any isUppercase

def TypeExpr.shown (t : TypeExpr) : String := String.ofList (collapse t.text.toList)

namespace TypeShape

/-- The name of the type that a receiver of this form belongs to: pointers, parentheses and type
arguments are seen through, but not a comment inside of them. Any number of them is, as a limit on
nested calls is no part of the model. -/
def ownerName : TypeShape → String
  | .named name => name
  | .generic base => base.ownerName
  | .wrapped commented inner => if commented then "" else inner.ownerName
  | _ => ""

def kind : TypeShape → SymbolKind
  | .struct => .struct
  | .interface => .interface
  | _ => .type

end TypeShape

namespace Member

/-- How a member of a parameter list is shown; a comment is not. -/
def shown? : Member → Option String
  | .comment => none
  | .parameter names variadic type =>
    let type := (if variadic then "..." else "") ++ type.shown
    some (if names.isEmpty then type else ", ".intercalate names ++ " " ++ type)

def isNamed : Member → Bool
  | .comment => false
  | .parameter names _ _ => !names.isEmpty

def plainType? : Member → Option TypeExpr
  | .parameter _ false type => some type
  | _ => none

end Member

def shownMembers (members : List Member) : List String := members.filterMap Member.shown?

/-- How the result of a function is shown. Parentheses stand around several results, and around a
single one if the list begins with a name. -/
def Result.shown : Result → String
  | .nothing => ""
  | .single type => " " ++ type.shown
  | .list members =>
    let shown := shownMembers members
    let text := ", ".intercalate shown
    if shown.isEmpty then ""
    else if 1 < shown.length || members.head?.any Member.isNamed then " (" ++ text ++ ")"
    else " " ++ text

namespace Function

/-- The type of the receiver: that of the first parameter that is not variadic. -/
def receiverType? (f : Function) : Option TypeExpr :=
  f.receiver.bind (·.findSome? Member.plainType?)

def signature (f : Function) : String :=
  let receiver := match f.receiver with
    | none => ""
    | some _ => "(" ++ (f.receiverType?.map TypeExpr.shown).getD "" ++ ") "
  let parameters := ", ".intercalate (shownMembers f.parameters)
  "func " ++ receiver ++ f.name ++ "(" ++ parameters ++ ")" ++ f.result.shown

def symbol (f : Function) : Symbol :=
  { name := f.name
    kind := if f.receiver.isSome then .method else .function
    line := f.line
    endLine := f.endLine
    exported := isExported f.name
    signature := f.signature
    parent := (f.receiverType?.map (·.shape.ownerName)).getD "" }

end Function

def TypeSpec.symbol (t : TypeSpec) : Symbol :=
  { name := t.name
    kind := if t.isAlias then .type else t.shape.kind
    line := t.line
    endLine := t.endLine
    exported := isExported t.name
    signature := "type " ++ t.name }

def BoundName.symbol (kind : SymbolKind) (n : BoundName) : Symbol :=
  { name := n.text
    kind
    line := n.line
    endLine := n.line
    exported := isExported n.text
    signature := kind.label ++ " " ++ n.text }

def Specs.flatten {α : Type} : Specs α → List α
  | .single spec => [spec]
  | .group specs => specs

def ValueSpec.names (spec : ValueSpec) : List BoundName := spec.first :: spec.others.map Prod.snd

def ValueSpec.marked (spec : ValueSpec) : List BoundName :=
  spec.first :: spec.others.flatMap fun (line, name) => [⟨",", line⟩, name]

/-- The symbols of an item. Commas between constants are listed like names, those between variables
are not. -/
def Item.symbols : Item → List Symbol
  | .function f => [f.symbol]
  | .types specs => specs.flatten.map TypeSpec.symbol
  | .constants specs => (specs.flatten.flatMap ValueSpec.marked).map (BoundName.symbol .constant)
  | .variables specs => (specs.flatten.flatMap ValueSpec.names).map (BoundName.symbol .variable)
  | .imports _ => []
  | .other => []

def SourceFile.symbols (file : SourceFile) : List Symbol := file.items.flatMap Item.symbols

def symbols? (content : List UInt8) : Option (List Symbol) :=
  let file := SourceFile.ofBytes content
  if file.complete then some file.symbols else none

def Item.importPaths : Item → List String
  | .imports paths =>
    let isMark (c : Char) : Bool := c == '"' || c == '\x60'
    let bare (p : String) := ((p.toList.dropWhile isMark).reverse.dropWhile isMark).reverse
    (paths.flatten.map fun p => String.ofList (bare p)).filter (· != "")
  | _ => []

/-- The paths that a file imports, in order. A file that breaks the grammar still tells those that
could be read. -/
def imports (content : List UInt8) : List String :=
  (SourceFile.ofBytes content).items.flatMap Item.importPaths

end CodeAtlas.Go
