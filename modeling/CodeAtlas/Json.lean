/-! # JSON

Documents and their written form: fields in ascending order of their names, two spaces for each
level of nesting, and no escape that is not needed.
-/
namespace CodeAtlas

/-- A JSON document without fractions. -/
inductive Json where
  | null
  | bool (b : Bool)
  | int (n : Int)
  | string (s : String)
  | array (items : List Json)
  | object (fields : List (String × Json))

namespace Json

def strings (texts : List String) : Json := .array (texts.map .string)

/-- A character inside of quotes. Controls without a letter of their own are written by number. -/
def escaped (c : Char) : String :=
  match c with
  | '"' => "\\\""
  | '\\' => "\\\\"
  | '\x08' => "\\b"
  | '\t' => "\\t"
  | '\n' => "\\n"
  | '\x0c' => "\\f"
  | '\r' => "\\r"
  | _ =>
    if c.toNat < 0x20 then
      "\\u00" ++ String.ofList [Nat.digitChar (c.toNat / 16), Nat.digitChar (c.toNat % 16)]
    else String.singleton c

def quoted (s : String) : String :=
  "\"" ++ s.toList.foldl (fun text c => text ++ escaped c) "" ++ "\""

def integer (n : Int) : String := if n < 0 then "-" ++ Nat.repr n.natAbs else Nat.repr n.natAbs

def newline (level : Nat) : String := "\n" ++ String.ofList (List.replicate (2 * level) ' ')

/-- A field put in front of the first one with a greater name. -/
def insertField (field : String × String) : List (String × String) → List (String × String)
  | [] => [field]
  | other :: rest =>
    if field.1 < other.1 then field :: other :: rest else other :: insertField field rest

def bracketed (left right : String) (level : Nat) (parts : List String) : String :=
  if parts.isEmpty then left ++ right
  else
    left ++ newline (level + 1) ++ ("," ++ newline (level + 1)).intercalate parts ++
      newline level ++ right

mutual

def writeAt (level : Nat) : Json → String
  | .null => "null"
  | .bool b => if b then "true" else "false"
  | .int n => integer n
  | .string s => quoted s
  | .array items => bracketed "[" "]" level (writeItems (level + 1) items)
  | .object fields =>
    let parts := (writeFields (level + 1) fields).foldr insertField []
    bracketed "\x7b" "\x7d" level (parts.map fun (name, value) => quoted name ++ ": " ++ value)

def writeItems (level : Nat) : List Json → List String
  | [] => []
  | item :: rest => writeAt level item :: writeItems level rest

def writeFields (level : Nat) : List (String × Json) → List (String × String)
  | [] => []
  | (name, value) :: rest => (name, writeAt level value) :: writeFields level rest

end

def write (document : Json) : String := writeAt 0 document

end Json

end CodeAtlas
