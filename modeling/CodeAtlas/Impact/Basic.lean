import CodeAtlas.Record
import CodeAtlas.Symbol

/-! # Answers to impact queries

What depends on a symbol or a file, in layers: the sites of the first layer depend on the target
directly, those of each further layer on the one before it.
-/
namespace CodeAtlas.Impact

structure Target where
  name : String
  file : String := ""
  line : Int := 0
  kind : String := "symbol"
  deriving DecidableEq, Repr

structure Site where
  file : String
  line : Int := 0
  content : String := ""
  /-- The name of the symbol around the place, empty for none. -/
  enclosing : String := ""
  deriving DecidableEq, Repr

structure Layer where
  depth : Int
  label : String
  sites : List Site := []
  deriving DecidableEq, Repr

structure Summary where
  files : Int := 0
  sites : Int := 0
  depth : Int := 0
  deriving DecidableEq, Repr

def distinct : List String → Nat
  | [] => 0
  | s :: rest => if rest.contains s then distinct rest else distinct rest + 1

/-- The greatest depth of layers, zero for none. -/
def deepest : List Layer → Int
  | [] => 0
  | [layer] => layer.depth
  | layer :: rest => max layer.depth (deepest rest)

def summarize (layers : List Layer) : Summary :=
  let sites := layers.flatMap (·.sites)
  { files := distinct (sites.map (·.file)), sites := sites.length, depth := deepest layers }

end Impact

structure Impact where
  target : Impact.Target
  layers : List Impact.Layer := []
  summary : Impact.Summary := {}
  deriving DecidableEq, Repr

namespace Impact
open Record

/-! ## Reading -/

def Target.ofValue : Reader Target := record fun fields =>
  (fun name file line kind => { name, file, line, kind }) <$>
    required fields "name" text <*>
    withDefault fields "file" text "" <*>
    withDefault fields "line" integer 0 <*>
    withDefault fields "kind" text "symbol"

def Site.ofValue : Reader Site := record fun fields =>
  (fun file line content enclosing => { file, line, content, enclosing }) <$>
    required fields "file" text <*>
    withDefault fields "line" integer 0 <*>
    withDefault fields "content" text "" <*>
    withDefault fields "enclosing_symbol" text ""

def Layer.ofValue : Reader Layer := record fun fields =>
  (fun depth label sites => { depth, label, sites }) <$>
    required fields "depth" integer <*>
    required fields "label" text <*>
    withDefault fields "refs" (list Site.ofValue) []

def Summary.ofValue : Reader Summary := record fun fields =>
  (fun files sites depth => { files, sites, depth }) <$>
    withDefault fields "total_files" integer 0 <*>
    withDefault fields "total_ref_sites" integer 0 <*>
    withDefault fields "max_depth_reached" integer 0

def ofValue : Reader Impact := record fun fields =>
  (fun target layers summary => { target, layers, summary }) <$>
    required fields "target" Target.ofValue <*>
    withDefault fields "layers" (list Layer.ofValue) [] <*>
    withDefault fields "summary" Summary.ofValue {}

/-! ## Reporting -/

def Target.heading (t : Target) : String :=
  if t.kind == "file" then "Impact analysis for file \"" ++ t.file ++ "\""
  else if t.file != "" then
    "Impact analysis for symbol \"" ++ t.name ++ "\" (" ++ t.file ++ ":" ++ toString t.line ++ ")"
  else "Impact analysis for \"" ++ t.name ++ "\""

def Site.report (s : Site) : String :=
  if s.content == "" then "  " ++ s.file
  else "  " ++ s.file ++ ":" ++ toString s.line ++ "  " ++ s.content

def Layer.reportLines (layer : Layer) : List String :=
  "" :: ("Depth " ++ toString layer.depth ++ " - " ++ layer.label ++ " (" ++
    toString layer.sites.length ++ "):") :: layer.sites.map (·.report)

/-- The lines of a report. Layers without sites are left out. -/
def reportLines (i : Impact) : List String :=
  let layers := i.layers.filter (!·.sites.isEmpty)
  if layers.isEmpty then [i.target.heading, "", "  No dependents found"]
  else
    i.target.heading :: layers.flatMap (·.reportLines) ++
      ["", "Total blast radius: " ++ toString i.summary.files ++ " files, " ++
        toString i.summary.sites ++ " reference sites"]

def report (i : Impact) : String := "\n".intercalate i.reportLines ++ "\n"

end Impact

end CodeAtlas
