import CodeAtlas.Text.Blank
import CodeAtlas.Text.CharClass
import CodeAtlas.Text.Find
import CodeAtlas.Text.Quoted

/-! # Command-line arguments

A command has one argument of its own and options. Long options may be cut short as long as only one
is meant, an option's value is the next argument or stands behind an equals sign, and two hyphens
end the options.
-/
namespace CodeAtlas.Cli
open Text

inductive Command where
  | symbols
  | references
  | impact
  | importers
  deriving DecidableEq, Repr

inductive Switch where
  | help
  | depth
  | max
  | root
  | json
  | verbose
  deriving DecidableEq, Repr

namespace Command

def name : Command → String
  | .symbols => "symbols"
  | .references => "refs"
  | .impact => "impact"
  | .importers => "importers"

def all : List Command := [.symbols, .references, .impact, .importers]

def ofName? (name : String) : Option Command := all.find? (·.name == name)

def argument : Command → String
  | .symbols => "file"
  | .references => "name"
  | .impact => "target"
  | .importers => "file"

def switches : Command → List Switch
  | .symbols => [.help, .root, .json, .verbose]
  | .references => [.help, .max, .root, .json, .verbose]
  | .impact => [.help, .depth, .max, .root, .json, .verbose]
  | .importers => [.help, .root, .json, .verbose]

end Command

namespace Switch

def spellings : Switch → List String
  | .help => ["-h", "--help"]
  | .depth => ["--depth"]
  | .max => ["--max"]
  | .root => ["--root"]
  | .json => ["--json"]
  | .verbose => ["--verbose", "-v"]

def hasValue : Switch → Bool
  | .depth | .max | .root => true
  | .help | .json | .verbose => false

end Switch

inductive UsageFault where
  | required (argument : String)
  | unknownCommand (name : String)
  | unrecognized (arguments : List String)
  | ambiguous (argument : String) (spellings : List String)
  | missingValue (option : Switch)
  | unwantedValue (option : Switch) (value : String)
  | notInteger (option : Switch) (value : String)
  deriving DecidableEq, Repr

def UsageFault.message : UsageFault → String
  | .required argument => "the following arguments are required: " ++ argument
  | .unknownCommand name =>
    "argument command: invalid choice: " ++ quoted name ++ " (choose from " ++
      ", ".intercalate (Command.all.map fun c => quoted c.name) ++ ")"
  | .unrecognized arguments => "unrecognized arguments: " ++ " ".intercalate arguments
  | .ambiguous argument spellings =>
    "ambiguous option: " ++ argument ++ " could match " ++ ", ".intercalate spellings
  | .missingValue option =>
    "argument " ++ "/".intercalate option.spellings ++ ": expected one argument"
  | .unwantedValue option value =>
    "argument " ++ "/".intercalate option.spellings ++
      ": ignored explicit argument " ++ quoted value
  | .notInteger option value =>
    "argument " ++ "/".intercalate option.spellings ++ ": invalid int value: " ++ quoted value

/-! ## Single arguments -/

/-- What an argument is, given the options that there are. -/
inductive Reading where
  | plain
  /-- An option, with the value that is attached to it. -/
  | option (option : Switch) (spelling : String) (value : Option String)
  | unknown
  | ambiguous (spellings : List String)
  deriving DecidableEq, Repr

def spellingsOf (switches : List Switch) : List (String × Switch) :=
  switches.flatMap fun s => s.spellings.map (·, s)

def splitValue (argument : String) : String × Option String :=
  match cutAt? '=' argument.toList with
  | some (before, behind) => (String.ofList before, some (String.ofList behind))
  | none => (argument, none)

def isNegativeNumber (argument : List Char) : Bool :=
  let isDigit (c : Char) := (decimalDigit? c).isSome
  match argument with
  | '-' :: body =>
    -- one line feed at the end goes unnoticed
    let body := if body.getLast? == some '\n' then body.dropLast else body
    let (whole, rest) := body.span isDigit
    match rest with
    | [] => !whole.isEmpty
    | '.' :: fraction => !fraction.isEmpty && fraction.all isDigit
    | _ => false
  | _ => false

/-- The options that an argument may be short for, with attached values. -/
def shortFor (switches : List Switch) (argument : String) :
    List (Switch × String × Option String) :=
  let (head, value) := splitValue argument
  match argument.toList with
  | '-' :: '-' :: _ =>
    (spellingsOf switches).filterMap fun (spelling, s) =>
      if startsWith head spelling.toList then some (s, spelling, value) else none
  | '-' :: c :: rest =>
    (spellingsOf switches).filterMap fun (spelling, s) =>
      if spelling.toList == ['-', c] then some (s, spelling, some (String.ofList rest))
      else if startsWith argument spelling.toList then some (s, spelling, none)
      else none
  | _ => []

def readArgument (switches : List Switch) (argument : String) : Reading :=
  let known := spellingsOf switches
  match argument.toList with
  | '-' :: _ :: _ => match known.lookup argument with
    | some s => .option s argument none
    | none =>
      let (head, value) := splitValue argument
      match (if value.isSome then known.lookup head else none) with
      | some s => .option s head value
      | none => match shortFor switches argument with
        | [(s, spelling, value)] => .option s spelling value
        | _ :: _ :: _ => .ambiguous ((shortFor switches argument).map (·.2.1))
        | [] =>
          -- no option has a name like these, so they may be arguments
          if isNegativeNumber argument.toList || argument.toList.contains ' ' then .plain
          else .unknown
  | _ => .plain

/-! ## Values -/

def isNumberBlank (c : Char) : Bool := isBlank c && !(0x1C ≤ c.toNat && c.toNat ≤ 0x1F)

/-- The number that digits of any script write, with single low lines between them. While `pending`
holds, a digit has to come. -/
def digitsValue (value : Nat) (pending : Bool) : List Char → Option Nat
  | [] => if pending then none else some value
  | c :: rest => match decimalDigit? c with
    | some d => digitsValue (value * 10 + d) false rest
    | none => if c == '_' && !pending then digitsValue value true rest else none

def integer? (argument : String) : Option Int :=
  let trimmed := ((argument.toList.dropWhile isNumberBlank).reverse.dropWhile isNumberBlank).reverse
  let (negative, body) := match trimmed with
    | '-' :: rest => (true, rest)
    | '+' :: rest => (false, rest)
    | _ => (false, trimmed)
  (digitsValue 0 true body).map fun n => if negative then -(n : Int) else n

/-! ## Invocations -/

structure Invocation where
  command : Command
  argument : String
  depth : Option Int := none
  max : Option Int := none
  root : String := "."
  json : Bool := false
  verbose : Bool := false
  deriving DecidableEq, Repr

structure Progress where
  argument : Option String := none
  help : Bool := false
  depth : Option Int := none
  max : Option Int := none
  root : String := "."
  json : Bool := false
  verbose : Bool := false
  /-- Arguments that nothing is known about. -/
  extras : List String := []
  deriving DecidableEq, Repr

namespace Progress

def flag (p : Progress) : Switch → Progress
  | .help => { p with help := true }
  | .json => { p with json := true }
  | .verbose => { p with verbose := true }
  | _ => p

def set (p : Progress) (option : Switch) (value : String) : Except UsageFault Progress :=
  let number := match integer? value with
    | some n => Except.ok (some n)
    | none => .error (.notInteger option value)
  match option with
  | .depth => do return { p with depth := ← number }
  | .max => do return { p with max := ← number }
  | .root => return { p with root := value }
  | _ => return p

def flags (p : Progress) (switches : List Switch) (option : Switch) :
    List Char → Except UsageFault Progress
  | [] => .ok (p.flag option)
  | c :: rest => match (spellingsOf switches).lookup (String.ofList ['-', c]) with
    | some next => (p.flag option).flags switches next rest
    | none => .error (.unwantedValue option (String.ofList (c :: rest)))

/-- Sets an option without a value that has one attached. -/
def attached (p : Progress) (switches : List Switch) (option : Switch) (spelling value : String) :
    Except UsageFault Progress :=
  match spelling.toList with
  | '-' :: '-' :: _ => .error (.unwantedValue option value)
  | _ => if value.isEmpty then .error (.unwantedValue option value)
    else p.flags switches option value.toList

def plain (p : Progress) (argument : String) : Progress :=
  match p.argument with
  | none => { p with argument := some argument }
  | some _ => { p with extras := p.extras ++ [argument] }

end Progress

def readRest (p : Progress) (arguments : List String) : Progress := arguments.foldl Progress.plain p

/-- Reads the arguments of a command. Two hyphens belong to the command's own argument if it stands
directly in front of them or behind them. -/
def readArguments (switches : List Switch) :
    (beside : Bool) → Progress → List String → Except UsageFault Progress
  | _, p, [] => .ok p
  | beside, p, argument :: rest =>
    if p.help then .ok p
    else if argument == "--" then
      if beside || (p.argument.isNone && !rest.isEmpty) then .ok (readRest p rest)
      else .ok (readRest { p with extras := p.extras ++ [argument] } rest)
    else match readArgument switches argument with
      | .plain => readArguments switches p.argument.isNone (p.plain argument) rest
      | .unknown =>
        readArguments switches false { p with extras := p.extras ++ [argument] } rest
      | .ambiguous spellings => .error (.ambiguous argument spellings)
      | .option s _ none =>
        if !s.hasValue then readArguments switches false (p.flag s) rest
        else match rest with
          | value :: rest =>
            if value != "--" && readArgument switches value == .plain then do
              readArguments switches false (← p.set s value) rest
            else .error (.missingValue s)
          | [] => .error (.missingValue s)
      | .option s spelling (some value) => do
        let p ← if s.hasValue then p.set s value else p.attached switches s spelling value
        readArguments switches false p rest

/-- The outcome of reading arguments. A fault is one of the program or of a command. -/
inductive Arguments where
  | invocation (i : Invocation)
  | help (command : Option Command)
  | fault (command : Option Command) (fault : UsageFault)
  deriving DecidableEq, Repr

def firstAmbiguous? (switches : List Switch) (arguments : List String) : Option UsageFault :=
  (arguments.takeWhile (· != "--")).findSome? fun argument =>
    match readArgument switches argument with
    | .ambiguous spellings => some (.ambiguous argument spellings)
    | _ => none

/-- Reads the arguments of a command. An argument that may mean several options is found before all
other faults. -/
def readAll (switches : List Switch) (arguments : List String) : Except UsageFault Progress :=
  match firstAmbiguous? switches arguments with
  | some fault => .error fault
  | none => readArguments switches false {} arguments

/-- Reads the arguments of a command, where nothing is known about the ones in front of it. -/
def ofCommand (extras : List String) (command : Command) (arguments : List String) : Arguments :=
  match readAll command.switches arguments with
  | .error fault => .fault command fault
  | .ok p =>
    if p.help then .help command
    else match p.argument with
      | none => .fault command (.required command.argument)
      | some argument =>
        match extras ++ p.extras with
        | [] => .invocation { command, argument, depth := p.depth, max := p.max, root := p.root,
                              json := p.json, verbose := p.verbose }
        | extras => .fault none (.unrecognized extras)

def Arguments.ofList (extras : List String) : List String → Arguments
  | [] => .fault none (.required "command")
  | argument :: rest =>
    let command (name : String) := match Command.ofName? name with
      | some c => ofCommand extras c rest
      | none => .fault none (.unknownCommand name)
    if argument == "--" then
      if rest.isEmpty then .fault none (.required "command") else command argument
    else match readArgument [.help] argument with
      | .plain => command argument
      | .unknown => Arguments.ofList (extras ++ [argument]) rest
      | .ambiguous spellings => .fault none (.ambiguous argument spellings)
      | .option _ _ none => .help none
      | .option s spelling (some value) =>
        match Progress.attached {} [.help] s spelling value with
        | .ok _ => .help none
        | .error f => .fault none f

end CodeAtlas.Cli
