import CodeAtlas.Python.Grammar.Statement
import CodeAtlas.Python.Source

/-! # Imports of Python

The imports of a file are those of all its statements, in the order of the text; a file that is not
well formed has none. A relative import counts its dots upward from the importing module.
-/
namespace CodeAtlas.Python

/-- The imports of a text whose lines end in line feeds. -/
def importsOf? (text : List Char) : Option (List Import) := do
  let tokens ← Lexer.tokens? text
  let (imports, _) ← (Grammar.ofDepth (8 * text.length + 64)).file tokens
  return imports

def imports (text : List Char) : List Import := ((Source.ofText? text).bind importsOf?).getD []

def importsOfBytes (bytes : List UInt8) : List Import :=
  ((Source.ofBytes? bytes).bind importsOf?).getD []

/-- The absolute name of a module that is imported by `importer`, `level` dots up. More dots than
the importing module has parts count as none, and a name without any part is that of the importing
module itself. -/
def absoluteModule (importer module : String) (level : Int) : String :=
  let parts := Text.splitOn '.' importer.toList
  if (parts.length : Int) < level then if module.isEmpty then importer else module
  else
    let base := (parts.take (parts.length - level).toNat).map String.ofList
    if !module.isEmpty then ".".intercalate (base ++ [module])
    else if !base.isEmpty then ".".intercalate base
    else importer

end CodeAtlas.Python
