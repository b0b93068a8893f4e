import CodeAtlas.Record

/-! # Symbols

A symbol is a named declaration of a source file with the lines it spans. Lines count from one;
an end line of zero means that the end is unknown.
-/
namespace CodeAtlas

inductive SymbolKind where
  | function
  | method
  | struct
  | interface
  | type
  | constant
  | variable
  | classType
  | enumeration
  deriving DecidableEq, Repr

namespace SymbolKind

def label : SymbolKind → String
  | .function => "func"
  | .method => "method"
  | .struct => "struct"
  | .interface => "interface"
  | .type => "type"
  | .constant => "const"
  | .variable => "var"
  | .classType => "class"
  | .enumeration => "enum"

def all : List SymbolKind :=
  [.function, .method, .struct, .interface, .type, .constant, .variable, .classType,
    .enumeration]

def ofLabel? (label : String) : Option SymbolKind := all.find? (·.label == label)

end SymbolKind

/-- A named declaration. The signature is its header as shown to a reader; the parent is the name
of the type that a method belongs to, empty for other symbols. -/
structure Symbol where
  name : String
  kind : SymbolKind
  line : Int
  endLine : Int := 0
  exported : Bool := false
  signature : String := ""
  parent : String := ""
  deriving DecidableEq, Repr

namespace Symbol

/-- The last line of a symbol: its own line where the end is unknown. -/
def lastLine (s : Symbol) : Int := if s.endLine = 0 then s.line else s.endLine

def kindOfValue : Record.Reader SymbolKind := fun v =>
  let kind? := match v with
    | .string s => SymbolKind.ofLabel? s
    | _ => none
  match kind? with
  | some kind => .ok kind
  | none => .fault (.notOneOf (SymbolKind.all.map (·.label)))

def ofValue : Record.Reader Symbol := Record.record fun fields =>
  (fun name kind line endLine exported signature parent =>
      { name, kind, line, endLine, exported, signature, parent }) <$>
    Record.required fields "name" Record.text <*>
    Record.required fields "kind" kindOfValue <*>
    Record.required fields "line" Record.integer <*>
    Record.withDefault fields "end_line" Record.integer 0 <*>
    Record.required fields "exported" Record.truth <*>
    Record.withDefault fields "signature" Record.text "" <*>
    Record.withDefault fields "parent" Record.text ""

def contains (s : Symbol) (line : Int) : Bool := s.line ≤ line && line ≤ s.lastLine

end Symbol

end CodeAtlas
