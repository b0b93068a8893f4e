import CodeAtlas.Cli.Run

/-! # The program

The program takes a picture of the directories that its arguments name and leaves the rest to the
command line.
-/
namespace CodeAtlas.Program

/-- The entries below a directory. A link is kept as a link to where it leads in the end. -/
partial def entriesBelow (directory : String) : IO (List (Location × FileTree.Entry)) := do
  let mut found := #[]
  for entry in ← (← IO.FS.realPath directory).readDir do
    let path := entry.path.toString
    let location := Path.components path
    match (← entry.path.symlinkMetadata).type with
    | .dir =>
      found := (found.push (location, .directory)) ++ (← entriesBelow path)
    | .file => found := found.push (location, .file (← IO.FS.readBinFile path).toList)
    | .symlink => found := found.push (location, .link (← IO.FS.realPath path).toString)
    | .other => pure ()
  return found.toList

def ancestors (l : Location) : List (Location × FileTree.Entry) :=
  (List.range l.length).map fun n => (l.take n, .directory)

def typeOf? (path : String) : IO (Option IO.FS.FileType) :=
  try
    let metadata ← (← IO.FS.realPath path).metadata
    return some metadata.type
  catch _ => return none

def entriesAt (path : String) : IO (List (Location × FileTree.Entry)) := do
  let real := (← IO.FS.realPath path).toString
  let location := Path.components real
  let aliases := if real == path then [] else [(Path.components path, .link real)]
  match ← typeOf? real with
  | some .dir =>
    return ancestors location ++ [(location, .directory)] ++ (← entriesBelow real) ++ aliases
  | some .file =>
    let content ← IO.FS.readBinFile real
    return ancestors location ++ [(location, .file content.toList)] ++ aliases
  | _ => return []

/-- The picture that a run needs. -/
def snapshot (workingDirectory : String) (arguments : List String) : IO FileTree := do
  match Cli.Arguments.ofList [] arguments with
  | .invocation i =>
    let path := if i.command = .symbols then i.argument else i.root
    let own := Path.components workingDirectory
    let entries ← entriesAt (Path.normalize (Path.join workingDirectory path))
    return ⟨entries ++ ancestors own ++ [(own, .directory)]⟩
  | _ => return {}

def usage : String :=
  "usage: refmap (symbols | refs | impact | importers) ARGUMENT " ++
    "[--root ROOT] [--json] [--verbose]\n"

def faultMessage : Cli.Fault → String
  | .scan .notText => "an ignore file is not UTF-8"
  | .scan .brokenLine => "a line of an ignore file is broken"
  | .scan .outsideDirectory => "a file is outside of the directory of the ignore file"
  | .scan .unusableRule => "a rule of an ignore file cannot be used"
  | .scan .nameTooLong => "the name of a file is too long"
  | .config fault => fault.message Config.fileName
  | .path .linkLoop => "a symbolic link leads back to itself"
  | .nulCharacter => "a path holds a NUL character"

end CodeAtlas.Program

open CodeAtlas in
def main (arguments : List String) : IO UInt32 := do
  let workingDirectory := (← IO.FS.realPath (← IO.currentDir)).toString
  let tree ← Program.snapshot workingDirectory arguments
  match Cli.run .plain tree workingDirectory arguments with
  | .ok (.finished code output errors) =>
    IO.print output
    IO.eprint errors
    return code.toUInt32
  | .ok (.help _) =>
    IO.print Program.usage
    return 0
  | .ok (.misused command fault) =>
    IO.eprintln (Cli.misuseLine command fault)
    return 2
  | .error fault =>
    IO.eprint (Cli.errorLine (Program.faultMessage fault))
    return 1
