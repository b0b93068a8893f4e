import CodeAtlas.Impact.Basic
import CodeAtlas.Imports.Graph
import CodeAtlas.References.Search

/-! # Impact analysis

What depends on a name is found breadth first: the references to the name, then the references to
the symbols around those references, and so on. What depends on a file is found in the same way by
its importers. No name and no file is gone through twice, so that circles come to an end.
-/
namespace CodeAtlas.Impact
open Text

/-- Whether a target is a file and not a name: it has a slash or a dot. -/
def isFileTarget (target : String) : Bool :=
  target.toList.any fun c => c == '/' || c == '.'

/-! ## Enclosing symbols -/

/-- The number of lines that a symbol has behind its first one. -/
def extent (s : Symbol) : Int := s.lastLine - s.line

def isInner (s other : Symbol) : Bool :=
  extent s < extent other || (extent s == extent other && other.line < s.line)

def enclosingFrom (line : Int) (best : Option Symbol) : List Symbol → Option Symbol
  | [] => best
  | s :: rest =>
    if !s.contains line then enclosingFrom line best rest
    else match best with
      | none => enclosingFrom line (some s) rest
      | some b => enclosingFrom line (some (if isInner s b then s else b)) rest

/-- The innermost symbol around a line; of symbols with the same lines, the first. -/
def enclosing? (symbols : List Symbol) (line : Int) : Option Symbol :=
  enclosingFrom line none symbols

/-! ## Layers -/

def label (depth : Nat) (noun : String) : String :=
  if depth = 1 then "direct " ++ noun
  else if depth = 2 then "transitive " ++ noun
  else "depth-" ++ toString depth ++ " " ++ noun

def ofLayers (target : Target) (layers : List Layer) : Impact :=
  { target, layers, summary := summarize layers }

/-! ## Names -/

/-- What an analysis of names goes by: the symbols of a file, and the references to a name up to a
limit. -/
structure Lookup where
  symbols : String → Logged (List Symbol)
  references : String → (limit : Nat) → Logged References

/-- The symbols of a file, with nothing told about a file that was `asked` for before. -/
def Lookup.symbolsOnce (l : Lookup) (asked : List String) (path : String) :
    Logged (List Symbol × List String) :=
  let found := l.symbols path
  if asked.contains path then ⟨(found.value, asked), []⟩
  else ⟨(found.value, path :: asked), found.log⟩

def Lookup.sites (l : Lookup) :
    (asked : List String) → List Mention → Logged (List Site × List String)
  | asked, [] => pure ([], asked)
  | asked, m :: rest => do
    let (symbols, asked) ← l.symbolsOnce asked m.path
    let enclosing := ((enclosing? symbols m.line).map (·.name)).getD ""
    let site : Site := { file := m.path, line := m.line, content := m.content, enclosing }
    let (sites, asked) ← l.sites asked rest
    return (site :: sites, asked)

/-- The target for a name: the kind is that of the symbol which is declared where the name is
defined. -/
def Lookup.target (l : Lookup) (name : String) (definition : Option Mention) :
    Logged (Target × List String) := do
  match definition with
  | none => return ({ name }, [])
  | some d =>
    let (symbols, asked) ← l.symbolsOnce [] d.path
    let declared := symbols.find? fun s => s.name == name && s.line == d.line
    let kind := (declared.map (·.kind.label)).getD "symbol"
    return ({ name, file := d.path, line := d.line, kind }, asked)

def newNames : (visited : List String) → List Site → List String × List String
  | visited, [] => ([], visited)
  | visited, s :: rest =>
    if s.enclosing.isEmpty || visited.contains s.enclosing then newNames visited rest
    else
      let (names, visited) := newNames (s.enclosing :: visited) rest
      (s.enclosing :: names, visited)

def Lookup.sitesOfNames (l : Lookup) : (limit : Nat) → (asked : List String) → List String →
    Logged (List Site × List String)
  | _, asked, [] => pure ([], asked)
  | 0, asked, _ => pure ([], asked)
  | limit, asked, name :: rest => do
    let found ← l.references name limit
    let (sites, asked) ← l.sites asked found.references
    let (others, asked) ← l.sitesOfNames (limit - sites.length) asked rest
    return (sites ++ others, asked)

/-- The layers behind the sites of a layer: at most `more` of them, with at most `limit` sites. The
first of them has the given depth. -/
def Lookup.layersBehind (l : Lookup) : (more : Nat) → (depth limit : Nat) →
    (visited asked : List String) → List Site → Logged (List Layer)
  | 0, _, _, _, _, _ => pure []
  | more + 1, depth, limit, visited, asked, previous => do
    if limit = 0 then return []
    else
      let (names, visited) := newNames visited previous
      if names.isEmpty then return []
      else
        Logged.tell (.expanding depth names)
        let (sites, asked) ← l.sitesOfNames limit asked names
        if sites.isEmpty then return []
        else
          let layers ←
            l.layersBehind more (depth + 1) (limit - sites.length) visited asked sites
          return { depth, label := label depth "dependents", sites } :: layers

def Lookup.ofName (l : Lookup) (name : String) (depth limit : Nat) : Logged Impact := do
  let direct ← l.references name limit
  let (target, asked) ← l.target name direct.definition
  match depth with
  | 0 => return { target }
  | more + 1 =>
    let (sites, asked) ← l.sites asked direct.references
    if sites.isEmpty then return ofLayers target []
    else
      -- the target counts as visited, so a cycle through it comes to an end
      let layers ← l.layersBehind more 2 (limit - sites.length) [name] asked sites
      let first : Layer := { depth := 1, label := label 1 "references", sites }
      return ofLayers target (first :: layers)

/-! ## Files -/

def newFiles : (limit : Nat) → (visited : List String) → List String → List String
  | _, _, [] => []
  | 0, _, _ => []
  | limit + 1, visited, file :: rest =>
    if visited.contains file then newFiles (limit + 1) visited rest
    else file :: newFiles limit (file :: visited) rest

def importerLayers (importersOf : String → List String) :
    (more : Nat) → (depth limit : Nat) → (visited frontier : List String) → List Layer
  | 0, _, _, _, _ => []
  | more + 1, depth, limit, visited, frontier =>
    let files := newFiles limit visited (frontier.flatMap importersOf)
    if files.isEmpty then []
    else
      { depth, label := label depth "importers", sites := files.map fun file => { file } } ::
        importerLayers importersOf more (depth + 1) (limit - files.length) (files ++ visited) files

def ofFile (importersOf : String → List String) (path : String) (depth limit : Nat) : Impact :=
  ofLayers { name := Path.fileName path, file := path, kind := "file" }
    (importerLayers importersOf depth 1 limit [path] [path])

/-! ## Queries -/

inductive Fault where
  | notIndexed (path : String)
  | path (fault : Corpus.PathFault)
  deriving DecidableEq, Repr

def notIndexedMessage (path : String) : String := "file " ++ path ++ " not found in index"

/-- The symbols of the files of a corpus, each file read at most once. -/
def outlines (tree : FileTree) (c : Corpus) : List (String × Thunk (Logged (List Symbol))) :=
  c.paths.map fun path => (path, Thunk.mk fun _ => c.symbols tree path)

def outlineOf (table : List (String × Thunk (Logged (List Symbol)))) (path : String) :
    Logged (List Symbol) :=
  match table.lookup path with
  | some outline => outline.get
  | none => pure []

/-- What depends on a target, at most `depth` layers with at most `limit` sites; bounds below zero
count as zero. Importers are taken from the graph of the corpus, unless they are given. -/
def analyze (tree : FileTree) (c : Corpus) (target : String) (depth limit : Int)
    (hint : References.Hint) (importersOf : Option (String → List String)) :
    Logged (Except Fault Impact) := do
  if isFileTarget target then
    match c.relativize tree target with
    | .error fault => return .error (.path fault)
    | .ok path =>
      if !c.paths.contains path then return .error (.notIndexed path)
      -- without a layer to fill, the graph is not built and nothing is logged
      else if depth < 1 then return .ok (ofFile (fun _ => []) path 0 limit.toNat)
      else match importersOf with
        | some importersOf => return .ok (ofFile importersOf path depth.toNat limit.toNat)
        | none =>
          let graph ← ImportGraph.build tree c
          return .ok (ofFile graph.importersOf path depth.toNat limit.toNat)
  else
    let table := outlines tree c
    let lookup : Lookup :=
      { symbols := outlineOf table
        references := fun name limit => References.search tree c name limit hint }
    return .ok (← lookup.ofName target depth.toNat limit.toNat)

end CodeAtlas.Impact
