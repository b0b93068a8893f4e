import CodeAtlas.Text.Lines
import CodeAtlas.Text.Utf8

/-! # The text of a Python file

A file is bytes. Its encoding is UTF-8 unless a comment in one of the first two lines declares
another one. Bytes that are no text are kept as NUL characters where the encoding is not declared,
so that they do no harm in comments; elsewhere they make the file unreadable.
-/
namespace CodeAtlas.Python.Source
open Text

inductive Encoding where
  | utf8
  | ascii
  | latin1
  | windows1252
  deriving DecidableEq, Repr

def canonicalName (name : List Char) : String :=
  let name := name.map fun c => if c == '-' then '_' else c.toLower
  "_".intercalate (((splitOn '_' name).filter (!·.isEmpty)).map String.ofList)

def Encoding.ofName? (name : List Char) : Option Encoding :=
  let name := canonicalName name
  if ["utf_8", "utf8", "u8", "utf", "utf8_ucs2", "utf8_ucs4", "cp65001"].contains name then
    some .utf8
  else if ["ascii", "us_ascii", "646", "us", "ansi_x3.4_1968", "ansi_x3_4_1968", "ansi_x3.4_1986",
      "cp367", "csascii", "ibm367", "iso646_us", "iso_646.irv_1991", "iso_ir_6"].contains name then
    some .ascii
  else if ["latin_1", "latin1", "latin", "l1", "iso_8859_1", "iso8859_1", "iso8859", "8859",
      "iso_8859_1_1987", "cp819", "csisolatin1", "ibm819", "iso_ir_100"].contains name then
    some .latin1
  else if ["cp1252", "1252", "windows_1252"].contains name then
    some .windows1252
  else none

/-- The characters 0x80 to 0x9F of the Windows encoding; zero stands for none. -/
def windowsControls : List Nat :=
  [0x20AC, 0, 0x201A, 0x0192, 0x201E, 0x2026, 0x2020, 0x2021, 0x02C6, 0x2030, 0x0160, 0x2039,
    0x0152, 0, 0x017D, 0, 0, 0x2018, 0x2019, 0x201C, 0x201D, 0x2022, 0x2013, 0x2014,
    0x02DC, 0x2122, 0x0161, 0x203A, 0x0153, 0, 0x017E, 0x0178]

def Encoding.char? (e : Encoding) (b : UInt8) : Option Char :=
  let n := b.toNat
  if n < 0x80 then some (Char.ofNat n)
  else match e with
    | .latin1 => some (Char.ofNat n)
    | .windows1252 => match windowsControls[n - 0x80]? with
      | some 0 => none
      | some m => some (Char.ofNat m)
      | none => some (Char.ofNat n)
    | _ => none

def Encoding.decode? (e : Encoding) (bytes : List UInt8) : Option (List Char) :=
  match e with
  | .utf8 => Utf8.decode? bytes
  | _ => bytes.mapM e.char?

/-- Reads UTF-8 with NUL in the place of what is no text. -/
def decodeLeniently (bytes : List UInt8) : List Char :=
  (Utf8.eventsFrom .start bytes).map fun
    | .char c => c
    | .illFormed => '\x00'

/-! ## Declarations of an encoding -/

def isMargin (c : Char) : Bool := c == ' ' || c == '\t' || c == '\x0c'

def isNameChar (c : Char) : Bool := c.isAlphanum || c == '-' || c == '_' || c == '.'

/-- The name of an encoding declared at this place or behind it. -/
def declaredFrom? : List Char → Option (List Char)
  | [] => none
  | c :: rest =>
    let here : Option (List Char) := do
      match (c :: rest).drop 6 with
      | d :: name =>
        if "coding".toList.isPrefixOf (c :: rest) && (d == ':' || d == '=') then
          match (name.dropWhile fun c => c == ' ' || c == '\t').takeWhile isNameChar with
          | [] => none
          | name => some name
        else none
      | [] => none
    here.or (declaredFrom? rest)

def declared? (line : List Char) : Option (List Char) :=
  match line.dropWhile isMargin with
  | '#' :: comment => declaredFrom? comment
  | _ => none

def isIdle (line : List Char) : Bool :=
  match line.dropWhile isMargin with
  | [] => true
  | c :: _ => c == '#'

def header? (text : List Char) : Option (List Char) :=
  match lines text with
  | first :: second :: _ => (declared? first).or (if isIdle first then declared? second else none)
  | [first] => declared? first
  | [] => none

/-- The names that mean the default encoding, with all that may follow a hyphen. -/
def isDefaultName (name : List Char) : Bool :=
  let name := (name.take 12).map fun c => if c == '_' then '-' else c.toLower
  name == "utf-8".toList || "utf-8-".toList.isPrefixOf name

def isLatinName (name : List Char) : Bool :=
  let name := (name.take 12).map fun c => if c == '_' then '-' else c.toLower
  ["latin-1", "iso-8859-1", "iso-latin-1"].any fun latin =>
    name == latin.toList || (latin ++ "-").toList.isPrefixOf name

/-- The text of a file, with single line feeds between its lines. None where it cannot be read: a
NUL byte, an encoding that is unknown or does not go with a byte order mark, or bytes that are no
text in a declared encoding. -/
def ofBytes? (bytes : List UInt8) : Option (List Char) := do
  if bytes.contains 0 then none
  else
    let (marked, bytes) := match bytes with
      | 0xEF :: 0xBB :: 0xBF :: rest => (true, rest)
      | _ => (false, bytes)
    let lenient := foldNewlines (decodeLeniently bytes)
    match header? lenient with
    | none => some lenient
    | some name =>
      if isDefaultName name then some lenient
      else if marked then none
      else
        let encoding ← if isLatinName name then some .latin1 else Encoding.ofName? name
        return foldNewlines (← encoding.decode? bytes)

def ofText? (text : List Char) : Option (List Char) :=
  if text.contains '\x00' then none else some (foldNewlines text)

end CodeAtlas.Python.Source
