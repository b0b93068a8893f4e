import CodeAtlas.Cli.Arguments
import CodeAtlas.Impact.Analysis
import CodeAtlas.Index
import CodeAtlas.Json

/-! # The command line

Every command reads the configuration of the repository, looks at its files and writes a report, or
the answer itself as JSON.
-/
namespace CodeAtlas

/-! ## Answers as JSON -/

def Symbol.toJson (s : Symbol) : Json :=
  .object [("name", .string s.name), ("kind", .string s.kind.label), ("line", .int s.line),
    ("end_line", .int s.endLine), ("exported", .bool s.exported),
    ("signature", .string s.signature), ("parent", .string s.parent)]

def Mention.toJson (m : Mention) : Json :=
  .object [("path", .string m.path), ("line", .int m.line), ("content", .string m.content),
    ("is_definition", .bool m.isDefinition)]

def References.toJson (r : References) : Json :=
  .object [("symbol", .string r.symbol),
    ("definition", match r.definition with
      | some d => d.toJson
      | none => .null),
    ("references", .array (r.references.map (·.toJson))), ("total_references", .int r.total)]

namespace Impact

def Target.toJson (t : Target) : Json :=
  .object [("name", .string t.name), ("file", .string t.file), ("line", .int t.line),
    ("kind", .string t.kind)]

def Site.toJson (s : Site) : Json :=
  .object [("file", .string s.file), ("line", .int s.line), ("content", .string s.content),
    ("enclosing_symbol", .string s.enclosing)]

def Layer.toJson (l : Layer) : Json :=
  .object [("depth", .int l.depth), ("label", .string l.label),
    ("refs", .array (l.sites.map (·.toJson)))]

def Summary.toJson (s : Summary) : Json :=
  .object [("total_files", .int s.files), ("total_ref_sites", .int s.sites),
    ("max_depth_reached", .int s.depth)]

def toJson (i : Impact) : Json :=
  .object [("target", i.target.toJson), ("layers", .array (i.layers.map (·.toJson))),
    ("summary", i.summary.toJson)]

end Impact

namespace Cli

/-! ## Outcomes -/

inductive Outcome where
  | finished (code : Nat) (output errors : String)
  | help (command : Option Command)
  /-- The arguments of the program or of a command make no sense. -/
  | misused (command : Option Command) (fault : UsageFault)
  deriving DecidableEq, Repr

/-- Why a run cannot come to an end in good order. -/
inductive Fault where
  | scan (fault : Scan.Fault)
  | config (fault : ConfigFault)
  | path (fault : Corpus.PathFault)
  | nulCharacter
  deriving DecidableEq, Repr

def programName (command : Option Command) : String :=
  match command with
  | some c => "refmap " ++ c.name
  | none => "refmap"

/-- The last line of what is written for arguments that make no sense. -/
def misuseLine (command : Option Command) (fault : UsageFault) : String :=
  programName command ++ ": error: " ++ fault.message

def errorLine (message : String) : String := "error: " ++ message ++ "\n"

def failed (message : String) : Outcome := .finished 2 "" (errorLine message)

/-! ## Commands -/

/-- A text filled up with spaces to the given width. -/
def padded (width : Nat) (text : String) : String :=
  text ++ String.ofList (List.replicate (width - text.length) ' ')

def symbolLine (s : Symbol) : String :=
  let signature := String.ofList (s.signature.toList.map fun c => if c = '\n' then ' ' else c)
  "  " ++ padded 60 signature ++ " :" ++ toString s.line ++ "\n"

/-- The symbols of a file that is given from the working directory. -/
def symbols (tree : FileTree) (workingDirectory : String) (i : Invocation) :
    Except Fault Outcome :=
  let path := Path.clean i.argument
  match Outline.Registry.builtin.find? (Path.suffix path) with
  | none => .ok (failed ("no parser available for " ++ Path.suffix path ++ " files"))
  | some extractor => match tree.read (Path.join workingDirectory path) with
    | .error .nulCharacter => .error .nulCharacter
    | .error fault => .ok (failed (fault.message path))
    | .ok content => match extractor.symbols path content with
      | .error fault => .ok (failed fault.message)
      | .ok found =>
        if i.json then .ok (.finished 0 ((Json.array (found.map (·.toJson))).write ++ "\n") "")
        else .ok (.finished 0 (i.argument ++ ":\n" ++ String.join (found.map symbolLine)) "")

structure Written where
  code : Nat := 0
  output : String := ""
  errors : String := ""
  deriving DecidableEq, Repr

def written (json : Bool) (answer : Json) (report : String) : Written :=
  { output := if json then answer.write ++ "\n" else report }

def references (tree : FileTree) (c : Corpus) (config : Config) (i : Invocation) :
    Logged Written := do
  let index ← Index.build tree c
  let limit := i.max.getD config.maxResults
  let found ← References.search tree c i.argument limit index.definition?
  return written i.json found.toJson found.report

def impact (tree : FileTree) (c : Corpus) (config : Config) (i : Invocation) :
    Logged (Except Fault Written) := do
  let index ← Index.build tree c
  let depth := i.depth.getD config.maxDepth
  let limit := i.max.getD config.maxResults
  match ← Impact.analyze tree c i.argument depth limit index.definition? none with
  | .ok found => return .ok (written i.json found.toJson found.report)
  | .error (.notIndexed path) =>
    return .ok { code := 2, errors := errorLine (Impact.notIndexedMessage path) }
  | .error (.path fault) => return .error (.path fault)

def fileList (heading : String) (files : List String) : String :=
  "\n" ++ heading ++ " (" ++ toString files.length ++ "):\n" ++
    String.join (files.map fun file => "  " ++ file ++ "\n")

def importers (tree : FileTree) (c : Corpus) (i : Invocation) : Logged (Except Fault Written) := do
  match c.relativize tree i.argument with
  | .error fault => return .error (.path fault)
  | .ok path =>
    if !c.paths.contains path then
      return .ok { code := 2, errors := errorLine (Impact.notIndexedMessage path) }
    else
      let graph ← ImportGraph.build tree c
      let imports := graph.importsOf path
      let importers := graph.importersOf path
      let answer := Json.object [("file", .string path), ("imports", Json.strings imports),
        ("importers", Json.strings importers)]
      return .ok (written i.json answer
        (path ++ "\n" ++ fileList "imports" imports ++ fileList "importers" importers))

def query (tree : FileTree) (c : Corpus) (config : Config) (i : Invocation) :
    Logged (Except Fault Written) := do
  Logged.tell (.indexed c.paths.length c.root)
  match i.command with
  | .references => return .ok (← references tree c config i)
  | .impact => impact tree c config i
  | .importers => importers tree c i
  | .symbols => return .ok {}

/-- Runs a command that needs a corpus. The log is written in front of other errors if it
is wanted. -/
def overCorpus (library : Config.Library) (tree : FileTree) (workingDirectory : String)
    (i : Invocation) : Except Fault Outcome := do
  if i.root.toList.contains '\x00' then throw .nulCharacter
  match tree.resolve? (Path.join workingDirectory i.root) with
  | none => throw (.path .linkLoop)
  | some l =>
    let root := l.path
    match Config.load library tree root with
    | .error fault =>
      if fault.isExpected then return failed (fault.message (Config.pathIn root))
      else throw (.config fault)
    | .ok config => match Corpus.scan tree root (.ofConfig config) with
      | .error fault => throw (.scan fault)
      | .ok c =>
        let answer := query tree c config i
        let log := if i.verbose then String.join (answer.log.map (·.line)) else ""
        let w ← answer.value
        return .finished w.code w.output (log ++ w.errors)

def run (library : Config.Library) (tree : FileTree) (workingDirectory : String)
    (arguments : List String) : Except Fault Outcome :=
  match Arguments.ofList [] arguments with
  | .help command => .ok (.help command)
  | .fault command fault => .ok (.misused command fault)
  | .invocation i => match i.command with
    | .symbols => symbols tree workingDirectory i
    | _ => overCorpus library tree workingDirectory i

end Cli

end CodeAtlas
