/-! # Tokens of Python -/
namespace CodeAtlas.Python

structure StringLiteral where
  /-- The letters in front of the quotes, in lower case. -/
  marks : List Char
  body : List Char
  deriving DecidableEq, Repr

inductive TokenKind where
  | word (w : String)
  | number (imaginary : Bool)
  | string (literal : StringLiteral)
  | sign (s : String)
  | newline
  | indent
  | dedent
  | endOfFile
  deriving DecidableEq, Repr

/-- A token and the line on which it begins; lines count from one. -/
structure Token where
  kind : TokenKind
  line : Nat
  deriving DecidableEq, Repr

def keywords : List String :=
  ["False", "None", "True", "and", "as", "assert", "async", "await", "break", "class", "continue",
   "def", "del", "elif", "else", "except", "finally", "for", "from", "global", "if", "import", "in",
   "is", "lambda", "nonlocal", "not", "or", "pass", "raise", "return", "try", "while", "with",
   "yield"]

end CodeAtlas.Python
