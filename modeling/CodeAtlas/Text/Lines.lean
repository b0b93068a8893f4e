/-! # Lines

Three ways of cutting text into lines: at line feeds only, at every Unicode line boundary, and the
folding of carriage returns into line feeds that makes the first one enough.
-/
namespace CodeAtlas.Text

/-- Pieces of `text` between separators; there is one piece more than there are separators. -/
def splitOn (sep : Char) : List Char → List (List Char)
  | [] => [[]]
  | c :: rest =>
    if c = sep then [] :: splitOn sep rest
    else match splitOn sep rest with
      | [] => [[c]]
      | piece :: pieces => (c :: piece) :: pieces

def lines (text : List Char) : List (List Char) := splitOn '\n' text

def isLineBoundary (c : Char) : Bool :=
  let n := c.toNat
  (0x0A ≤ n && n ≤ 0x0D) || (0x1C ≤ n && n ≤ 0x1E) || n == 0x85 || n == 0x2028 || n == 0x2029

/-- Lines under the Unicode rules, where `line` holds the current one in reverse. A carriage
return and a line feed after it end one line together. -/
def boundedLinesFrom (line : List Char) : List Char → List (List Char)
  | [] => if line.isEmpty then [] else [line.reverse]
  | '\r' :: '\n' :: rest => line.reverse :: boundedLinesFrom [] rest
  | c :: rest =>
    if isLineBoundary c then line.reverse :: boundedLinesFrom [] rest
    else boundedLinesFrom (c :: line) rest

def boundedLines (text : List Char) : List (List Char) := boundedLinesFrom [] text

/-- Every carriage return, with a line feed after it or not, becomes one line feed. -/
def foldNewlines : List Char → List Char
  | [] => []
  | '\r' :: '\n' :: rest => '\n' :: foldNewlines rest
  | c :: rest => (if c = '\r' then '\n' else c) :: foldNewlines rest

end CodeAtlas.Text
