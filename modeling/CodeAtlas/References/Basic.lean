import CodeAtlas.Record

/-! # Answers to reference queries

The definition of a name and the lines that mention it.
-/
namespace CodeAtlas

/-- A line that mentions a name, without the blanks at its ends. -/
structure Mention where
  path : String
  line : Int
  content : String
  isDefinition : Bool := false
  deriving DecidableEq, Repr

structure References where
  symbol : String
  definition : Option Mention := none
  references : List Mention := []
  total : Int := 0
  deriving DecidableEq, Repr

namespace Mention
open Record

def ofValue : Reader Mention := record fun fields =>
  (fun path line content isDefinition => { path, line, content, isDefinition }) <$>
    required fields "path" text <*>
    required fields "line" integer <*>
    required fields "content" text <*>
    withDefault fields "is_definition" truth false

def report (m : Mention) : String := "  " ++ m.path ++ ":" ++ toString m.line ++ "  " ++ m.content

end Mention

namespace References
open Record

def ofValue : Reader References := record fun fields =>
  (fun symbol definition references total => { symbol, definition, references, total }) <$>
    required fields "symbol" text <*>
    withDefault fields "definition" (optional Mention.ofValue) none <*>
    withDefault fields "references" (list Mention.ofValue) [] <*>
    withDefault fields "total_references" integer 0

def reportLines (r : References) : List String :=
  let heading := match r.definition with
    | some d => ["Definition:", d.report, ""]
    | none => []
  let body := if r.references.isEmpty then
      [if r.definition.isNone then "no matches found" else "No references found"]
    else ("References (" ++ toString r.total ++ " matches):") :: r.references.map (·.report)
  heading ++ body

def report (r : References) : String := "\n".intercalate r.reportLines ++ "\n"

end References

end CodeAtlas
