import CodeAtlas.Cli.Run
import CodeAtlas.Proofs.Record
import CodeAtlas.Proofs.Text.Encoding
import CodeAtlas.Proofs.Toml.Faults

/-! # Configuration files of any content

Whatever the bytes of a configuration file are, the file is a sound configuration or there is a
fault. The command line reports the fault if the text is not well formed or a value is not as it
should be, in the words of the library that found it. Three other faults it does not expect: that
the bytes are no text, that an integer is too long to be worked out, and that brackets are too many
inside of one another.
-/
namespace CodeAtlas

namespace Config
open Record Text

/-- A path that is relative and leads neither to a home directory nor out by double dots. -/
structure IsInside (path : String) : Prop where
  relative : Path.isAbsolute path = false
  home : path.toList.head? ≠ some '~'
  dots : ".." ∉ Path.components path

/-- A configuration that queries can rely on. -/
structure IsSound (c : Config) : Prop where
  maxResults : 1 ≤ c.maxResults
  maxDepth : 1 ≤ c.maxDepth
  ignoreFile : c.ignoreFile = "" ∨ IsInside c.ignoreFile

/-- The configuration that the fields of a file describe. -/
structure Describes (fields : List (String × Value)) (c : Config) : Prop where
  known : ∀ x ∈ fields, x.1 ∈ fieldNames
  included : Says fields "include" (list text) [] c.included
  excluded : Says fields "exclude" (list text) [] c.excluded
  nestedIgnore : Says fields "nested_gitignore" truth false c.nestedIgnore
  ignoreFile : Says fields "ignore_file" insidePath ".refmapignore" c.ignoreFile
  maxResults : Says fields "max_results" (integerFrom 1) 50 c.maxResults
  maxDepth : Says fields "max_depth" (integerFrom 1) 3 c.maxDepth

/-- There are problems, and each of them names a field of the file. -/
structure Named (fields : List (String × Value)) (problems : List Problem) : Prop where
  ne_nil : problems ≠ []
  field : ∀ p ∈ problems, ∃ x ∈ fields, p.place.head? = some (.field x.1)

section Fields
variable {fields : List (String × Value)} {c : Config}

theorem ofFields_eq_ok_iff : ofFields fields = .ok c ↔ Describes fields c := by
  simp only [ofFields, seq_eq_ok_iff, map_eq_ok_iff, withDefault_eq_ok_iff, noOthers_eq_ok_iff]
  constructor
  · rintro ⟨_, ⟨_, ⟨_, ⟨_, ⟨_, ⟨_, ⟨included, hincluded, rfl⟩, excluded, hexcluded, rfl⟩, nested,
      hnested, rfl⟩, ignoreFile, hignoreFile, rfl⟩, maxResults, hmaxResults, rfl⟩, maxDepth,
      hmaxDepth, rfl⟩, _, hknown, rfl⟩
    exact ⟨hknown, hincluded, hexcluded, hnested, hignoreFile, hmaxResults, hmaxDepth⟩
  · intro h
    exact ⟨_, ⟨_, ⟨_, ⟨_, ⟨_, ⟨_, ⟨_, h.included, rfl⟩, _, h.excluded, rfl⟩, _, h.nestedIgnore,
      rfl⟩, _, h.ignoreFile, rfl⟩, _, h.maxResults, rfl⟩, _, h.maxDepth, rfl⟩, (), h.known, rfl⟩

theorem staysInside_iff {path : String} : staysInside path = true ↔ IsInside path := by
  have hhome : startsWith "~" path.toList = true ↔ path.toList.head? = some '~' :=
    startsWith_iff_head? rfl
  rw [staysInside, Bool.and_eq_true, Bool.and_eq_true, Bool.not_eq_true', Bool.not_eq_true',
    Bool.not_eq_true', ← Bool.not_eq_true (startsWith "~" path.toList),
    hhome, ← Bool.not_eq_true (List.contains _ _), List.contains_iff_mem]
  exact ⟨fun h => ⟨h.1.1, h.1.2, h.2⟩, fun h => ⟨⟨h.relative, h.home⟩, h.dots⟩⟩

theorem isInside_of_insidePath {v : Value} {path : String} (h : insidePath v = .ok path) :
    path = "" ∨ IsInside path := by
  obtain ⟨found, -, h⟩ := andThen_eq_ok_iff.mp h
  split_ifs at h with hinside
  · cases h
    rcases Bool.or_eq_true_iff.mp hinside with hempty | hinside
    · exact .inl (by simpa using hempty)
    · exact .inr (staysInside_iff.mp hinside)
  · cases h

theorem explains_insidePath : Explains insidePath := by
  intro v
  apply (explains_text v).andThen
  intro path
  split_ifs
  · exact refusesAt_ok path
  · exact refusesAt_fault trivial

theorem Describes.isSound (h : Describes fields c) : c.IsSound where
  maxResults := h.maxResults.imp (fun _ _ => le_of_integerFrom) (by decide)
  maxDepth := h.maxDepth.imp (fun _ _ => le_of_integerFrom) (by decide)
  ignoreFile := h.ignoreFile.imp (fun _ _ => isInside_of_insidePath)
    (.inr (staysInside_iff.mp (by decide +kernel)))

theorem named_of_refused {problems : List Problem} (h : ofFields fields = .refused problems) :
    Named fields problems := by
  have hfield (name : String) (v : Value) (rest : List Step)
      (hlookup : fields.lookup name = some v) :
      ∃ x ∈ fields, (Step.field name :: rest).head? = some (.field x.1) := by
    obtain ⟨before, after, rfl, -⟩ := List.lookup_eq_some_iff.mp hlookup
    exact ⟨(name, v), List.mem_append_right before List.mem_cons_self, rfl⟩
  have hrefused :
      RefusesAt (fun place => ∃ x ∈ fields, place.head? = some (.field x.1)) (ofFields fields) := by
    refine .seq (.seq (.seq (.seq (.seq (.seq (.map ?_) ?_) ?_) ?_) ?_) ?_) ?_
    · exact refusesAt_withDefault (explains_list explains_text) (hfield _) []
    · exact refusesAt_withDefault (explains_list explains_text) (hfield _) []
    · exact refusesAt_withDefault explains_truth (hfield _) false
    · exact refusesAt_withDefault explains_insidePath (hfield _) ".refmapignore"
    · exact refusesAt_withDefault (explains_integerFrom 1) (hfield _) 50
    · exact refusesAt_withDefault (explains_integerFrom 1) (hfield _) 3
    · exact refusesAt_noOthers fun x hx => ⟨x, hx, rfl⟩
  obtain ⟨hne, hplaces⟩ := hrefused problems h
  exact ⟨hne, hplaces⟩

end Fields

/-! ## Bytes -/

section Bytes
variable {library : Library} {bytes : List UInt8}

/-- What is in the file decides which configuration it is. -/
theorem ofBytes_eq_ok_iff {c : Config} : ofBytes library bytes = .ok c ↔ ∃ text fields,
    bytes = Utf8.encode text ∧ Toml.parse library.hasRoom text = .ok fields ∧
      Describes fields c := by
  unfold ofBytes
  simp only [← Utf8.decode?_eq_some_iff, ← ofFields_eq_ok_iff]
  cases Utf8.decode? bytes with
  | none => simp
  | some text =>
    cases hparse : Toml.parse library.hasRoom text with
    | error fault => cases fault <;> simp [hparse]
    | ok fields => cases hfields : ofFields fields <;> simp [hparse, hfields]

theorem ofBytes_eq_notText_iff :
    ofBytes library bytes = .error .notText ↔ ∀ text, bytes ≠ Utf8.encode text := by
  unfold ofBytes
  simp only [ne_eq, ← Utf8.decode?_eq_some_iff]
  cases Utf8.decode? bytes with
  | none => simp
  | some text =>
    cases hparse : Toml.parse library.hasRoom text with
    | error fault => cases fault <;> simp [hparse]
    | ok fields => cases hfields : ofFields fields <;> simp [hparse, hfields]

/-- What a text must be like for a fault. -/
inductive IsFaulty (library : Library) (text : List Char) : ConfigFault → Prop
  /-- It is no document. -/
  | malformed (hparse : Toml.parse library.hasRoom text = .error .malformed) :
    IsFaulty library text (.malformed (library.reason text))
  /-- It has a run of more digits than an integer may have. -/
  | tooManyDigits (hlong : Toml.HasLongNumeral text) : IsFaulty library text .tooManyDigits
  /-- It has brackets that leave no room for what is inside of them. -/
  | tooDeep (hdeep : Toml.Overflows library.hasRoom [] (Toml.foldLineEnds text)) :
    IsFaulty library text .tooDeep
  /-- It is a document, and something can be said against its fields. -/
  | refused (fields : List (String × Value)) (problems : List Problem)
    (hparse : Toml.parse library.hasRoom text = .ok fields) (hnamed : Named fields problems) :
    IsFaulty library text (.refused problems (library.report fields problems))

theorem IsFaulty.exists_report_eq {text : List Char} {problems : List Problem} {report : String}
    (h : IsFaulty library text (.refused problems report)) :
    ∃ fields, report = library.report fields problems := by
  cases h with
  | refused fields => exact ⟨fields, rfl⟩

/-- The bytes of a text are faulty only as far as the text is. -/
theorem exists_isFaulty {fault : ConfigFault} (h : ofBytes library bytes = .error fault)
    (hfault : fault ≠ .notText) :
    ∃ text, bytes = Utf8.encode text ∧ IsFaulty library text fault := by
  unfold ofBytes at h
  cases hdecode : Utf8.decode? bytes with
  | none =>
    rw [hdecode] at h
    exact absurd (Except.error.inj h).symm hfault
  | some text =>
    refine ⟨text, Utf8.decode?_eq_some_iff.mp hdecode, ?_⟩
    rw [hdecode] at h
    cases hparse : Toml.parse library.hasRoom text with
    | error f =>
      cases f with
      | malformed =>
        simp only [hparse, Except.error.injEq] at h
        exact h ▸ .malformed hparse
      | tooManyDigits =>
        simp only [hparse, Except.error.injEq] at h
        exact h ▸ .tooManyDigits (Toml.hasLongNumeral_of_parse hparse)
      | tooDeep =>
        simp only [hparse, Except.error.injEq] at h
        exact h ▸ .tooDeep (Toml.justifies_of_parse hparse)
    | ok fields =>
      cases hfields : ofFields fields with
      | ok c => simp [hparse, hfields] at h
      | refused problems =>
        simp only [hparse, hfields, Except.error.injEq] at h
        exact h ▸ .refused fields problems hparse (named_of_refused hfields)

end Bytes

/-- A file that can be read is at a path that is not too long. -/
theorem load_eq_ofBytes {library : Library} {tree : FileTree} {root : String} {bytes : List UInt8}
    (h : tree.read (pathIn root) = .ok bytes) : load library tree root = ofBytes library bytes := by
  have hshort : tree.isTooLong (pathIn root) = false := by
    unfold FileTree.isTooLong
    cases hlocate : tree.locate (pathIn root) with
    | ok l => rfl
    | error fault =>
      rw [FileTree.read, FileTree.lookup, hlocate] at h
      cases h
  rw [load, hshort, if_neg Bool.false_ne_true, h]

end Config

/-! ## The command line -/

namespace Cli

/-- Arguments of a command that looks at the files of the directory at a path, and so at its
configuration. -/
def AsksFor (tree : FileTree) (workingDirectory : String) (arguments : List String)
    (root : String) : Prop :=
  ∃ i l, Arguments.ofList [] arguments = .invocation i ∧ i.command ≠ .symbols ∧
    i.root.toList.contains '\x00' = false ∧
    tree.resolve? (Path.join workingDirectory i.root) = some l ∧ l.path = root

theorem run_of_fault {library : Config.Library} {tree : FileTree} {workingDirectory root : String}
    {arguments : List String} {fault : ConfigFault}
    (h : AsksFor tree workingDirectory arguments root)
    (hload : Config.load library tree root = .error fault) :
    run library tree workingDirectory arguments =
      if fault.isExpected then
        .ok (.finished 2 "" (errorLine (fault.message (Config.pathIn root))))
      else .error (.config fault) := by
  obtain ⟨i, l, harguments, hcommand, hnul, hresolve, rfl⟩ := h
  have hover : overCorpus library tree workingDirectory i =
      if fault.isExpected then
        .ok (.finished 2 "" (errorLine (fault.message (Config.pathIn l.path))))
      else .error (.config fault) := by
    rw [overCorpus, hnul, hresolve]
    simp only [hload]
    rfl
  rw [run, harguments, ← hover]
  cases hsymbols : i.command with
  | symbols => exact absurd hsymbols hcommand
  | _ => simp only [hsymbols]

/-- A text that is a line and its end. -/
def IsLine (text : String) : Prop := ∃ line : List Char, text.toList = line ++ ['\n'] ∧ '\n' ∉ line

theorem isLine_errorLine_iff {message : String} :
    IsLine (errorLine message) ↔ '\n' ∉ message.toList := by
  have htext : (errorLine message).toList = ("error: ".toList ++ message.toList) ++ ['\n'] := by
    rw [errorLine, String.toList_append, String.toList_append]
    rfl
  have hstart : '\n' ∉ "error: ".toList := by decide
  constructor
  · rintro ⟨line, hline, hfeed⟩ hmem
    rw [htext] at hline
    obtain ⟨rfl, -⟩ := List.append_inj' hline rfl
    exact hfeed (List.mem_append_right _ hmem)
  · intro h
    refine ⟨_, htext, fun hmem => ?_⟩
    exact (List.mem_append.mp hmem).elim hstart h

end Cli

/-- What a library has to say of a fault. -/
def ConfigFault.words : ConfigFault → String
  | .malformed reason => reason
  | .refused _ report => report
  | _ => ""

theorem ConfigFault.infix_message (path : String) (fault : ConfigFault)
    (h : fault.isExpected = true) : fault.words.toList <:+: (fault.message path).toList := by
  have hparts (start words : String) :
      words.toList <:+: (start ++ path ++ ": " ++ words).toList := by
    rw [String.toList_append]
    exact (List.suffix_append _ words.toList).isInfix
  cases fault with
  | malformed reason => exact hparts "Invalid TOML in " reason
  | refused problems report => exact hparts "Invalid config in " report
  | _ => cases h

theorem ConfigFault.mem_message_iff {path : String} {fault : ConfigFault}
    (h : fault.isExpected = true) :
    '\n' ∈ (fault.message path).toList ↔ '\n' ∈ path.toList ∨ '\n' ∈ fault.words.toList := by
  have hparts (start words : String) (hstart : '\n' ∉ start.toList) :
      '\n' ∈ (start ++ path ++ ": " ++ words).toList ↔
        '\n' ∈ path.toList ∨ '\n' ∈ words.toList := by
    simp [hstart]
  cases fault with
  | malformed reason => exact hparts "Invalid TOML in " reason (by decide)
  | refused problems report => exact hparts "Invalid config in " report (by decide)
  | _ => cases h

namespace Config

/-- The answers to a configuration file of the given content, for the file itself and on the command
line. -/
structure Answers (library : Library) (tree : FileTree) (root : String) (bytes : List UInt8) :
    Prop where
  /-- The file is the configuration that its fields describe. -/
  ok_iff : ∀ c, load library tree root = .ok c ↔ ∃ text fields, bytes = Text.Utf8.encode text ∧
    Toml.parse library.hasRoom text = .ok fields ∧ Describes fields c
  isSound : ∀ c, load library tree root = .ok c → c.IsSound
  notText_iff : load library tree root = .error .notText ↔ ∀ text, bytes ≠ Text.Utf8.encode text
  /-- There is a reason in the text for every other fault. -/
  isFaulty : ∀ fault, load library tree root = .error fault → fault ≠ .notText →
    ∃ text, bytes = Text.Utf8.encode text ∧ IsFaulty library text fault
  /-- What the check of a field has to say is in the message. -/
  quotes : ∀ problems report, load library tree root = .error (.refused problems report) →
    ∀ p ∈ problems, ∀ said, p.fault.explanation? = some said →
      said.toList <:+: ((ConfigFault.refused problems report).message (pathIn root)).toList
  run_eq : ∀ fault workingDirectory arguments, load library tree root = .error fault →
    Cli.AsksFor tree workingDirectory arguments root →
    Cli.run library tree workingDirectory arguments =
      if fault.isExpected then
        .ok (.finished 2 "" (Cli.errorLine (fault.message (pathIn root))))
      else .error (.config fault)
  /-- What is written is one line exactly if neither the path nor the library has a line feed. -/
  isLine_iff : ∀ fault, load library tree root = .error fault → fault.isExpected = true →
    (Cli.IsLine (Cli.errorLine (fault.message (pathIn root))) ↔
      '\n' ∉ (pathIn root).toList ∧ '\n' ∉ fault.words.toList)

/-- Whatever bytes stand in the configuration file, it is loaded as the sound configuration that its
fields describe, or there is a fault. The command line reports the fault with code 2 and the words
of the library, in as many lines as these have, unless the bytes are no text, so many digits stand
in the text that an integer cannot be worked out, or so many brackets that there is no room for a
value: these three faults it does not expect. -/
theorem load_answers (library : Library) {tree : FileTree} {root : String} {bytes : List UInt8}
    (hread : tree.read (pathIn root) = .ok bytes) : Answers library tree root bytes where
  ok_iff c := load_eq_ofBytes hread ▸ ofBytes_eq_ok_iff
  isSound c h := by
    rw [load_eq_ofBytes hread, ofBytes_eq_ok_iff] at h
    obtain ⟨text, fields, -, -, hdescribes⟩ := h
    exact hdescribes.isSound
  notText_iff := load_eq_ofBytes hread ▸ ofBytes_eq_notText_iff
  isFaulty fault h := exists_isFaulty (load_eq_ofBytes hread ▸ h)
  quotes problems report h p hp said hsaid := by
    obtain ⟨text, -, hfaulty⟩ := exists_isFaulty (load_eq_ofBytes hread ▸ h) (by simp)
    obtain ⟨fields, rfl⟩ := hfaulty.exists_report_eq
    have hreport := library.quotes fields problems p hp said hsaid
    exact hreport.trans (ConfigFault.infix_message (pathIn root) (.refused problems _) rfl)
  run_eq fault workingDirectory arguments h hasks := Cli.run_of_fault hasks h
  isLine_iff fault h hexpected := by
    rw [Cli.isLine_errorLine_iff, ConfigFault.mem_message_iff hexpected, not_or]

def configTree (content : List UInt8) : FileTree :=
  ⟨[(["r"], .directory), (["r", "refmap.toml"], .file content)]⟩

theorem read_configTree (content : List UInt8) :
    (configTree content).read (pathIn "/r") = .ok content := rfl

theorem asksFor_configTree (content : List UInt8) :
    Cli.AsksFor (configTree content) "/" ["refs", "f", "--root", "r"] "/r" :=
  ⟨{ command := .references, argument := "f", root := "r" }, ["r"], by decide +kernel, by decide,
    by decide, rfl, rfl⟩

/-- Two values that are not as they should be, and a field that is not known. -/
def faultyConfig : List UInt8 :=
  Text.Utf8.encode "max_results = 0\nignore_file = \"a/../..\"\nmax_dept = 2\n".toList

/-- What is wrong with the values comes first, and what is not known after it. All of it is written,
each problem in lines of its own. -/
theorem load_answers_faulty :
    let tree := configTree faultyConfig
    let problems : List Record.Problem := [⟨[.field "ignore_file"], .outsideRoot "a/../.."⟩,
      ⟨[.field "max_results"], .belowMinimum 1⟩, ⟨[.field "max_dept"], .unknownField⟩]
    let report := "3 validation errors for RefMapConfig" ++
      "\nignore_file\n  Value error, ignore_file 'a/../..' must be a relative path within the repo root" ++
      "\nmax_results\n  Input should be greater than or equal to 1" ++
      "\nmax_dept\n  Extra inputs are not permitted"
    let written := "error: Invalid config in /r/refmap.toml: " ++ report ++ "\n"
    tree.read (pathIn "/r") = .ok faultyConfig ∧
      load .plain tree "/r" = .error (.refused problems report) ∧
      Cli.run .plain tree "/" ["refs", "f", "--root", "r"] = .ok (.finished 2 "" written) ∧
      ¬ Cli.IsLine written := by
  intro tree problems report written
  have hload : load .plain tree "/r" = .error (.refused problems report) := by decide +kernel
  have hanswers := load_answers .plain (read_configTree faultyConfig)
  have hrun := hanswers.run_eq _ _ _ hload (asksFor_configTree faultyConfig)
  have hfeed : '\n' ∈ report.toList := by decide +kernel
  refine ⟨read_configTree faultyConfig, hload, hrun, fun hline => ?_⟩
  exact ((hanswers.isLine_iff _ hload rfl).mp hline).2 hfeed

/-- A byte that is no text, an integer with one digit too many, and brackets that take more of the
stack than there is: the command line reports none of them. A value that is too small it reports in
several lines. -/
theorem run_unexpected :
    let long := 'x' :: '=' :: List.replicate (Toml.maxDigits + 1) '1'
    let deep := 'x' :: '=' :: List.replicate 497 '['
    let small := "max_results=0".toList
    let written := "error: Invalid config in /r/refmap.toml: 1 validation error for RefMapConfig" ++
      "\nmax_results\n  Input should be greater than or equal to 1\n"
    Cli.run .plain (configTree [0xFF]) "/" ["refs", "f", "--root", "r"] =
        .error (.config .notText) ∧
      Cli.run .plain (configTree (Text.Utf8.encode long)) "/" ["refs", "f", "--root", "r"] =
        .error (.config .tooManyDigits) ∧
      Cli.run .plain (configTree (Text.Utf8.encode deep)) "/" ["refs", "f", "--root", "r"] =
        .error (.config .tooDeep) ∧
      Cli.run .plain (configTree (Text.Utf8.encode small)) "/" ["refs", "f", "--root", "r"] =
        .ok (.finished 2 "" written) := by
  intro long deep small written
  have hbyte : load .plain (configTree [0xFF]) "/r" = .error .notText := by decide +kernel
  have hlong : load .plain (configTree (Text.Utf8.encode long)) "/r" = .error .tooManyDigits := by
    have hparse : Toml.parse Library.plain.hasRoom long = .error .tooManyDigits := by
      set_option maxRecDepth 100000 in rfl
    rw [load_eq_ofBytes (read_configTree _), ofBytes, Text.Utf8.decode?_eq_some_iff.mpr rfl]
    simp only [hparse]
  have hdeep : load .plain (configTree (Text.Utf8.encode deep)) "/r" = .error .tooDeep := by
    have hparse : Toml.parse Library.plain.hasRoom deep = .error .tooDeep := by
      set_option maxRecDepth 100000 in rfl
    rw [load_eq_ofBytes (read_configTree _), ofBytes, Text.Utf8.decode?_eq_some_iff.mpr rfl]
    simp only [hparse]
  have hsmall : load .plain (configTree (Text.Utf8.encode small)) "/r" = .error
      (.refused [⟨[.field "max_results"], .belowMinimum 1⟩]
        (plainReport [⟨[.field "max_results"], .belowMinimum 1⟩])) := by decide +kernel
  refine ⟨Cli.run_of_fault (asksFor_configTree _) hbyte,
    Cli.run_of_fault (asksFor_configTree _) hlong,
    Cli.run_of_fault (asksFor_configTree _) hdeep, ?_⟩
  exact (Cli.run_of_fault (asksFor_configTree _) hsmall).trans (by decide +kernel)

end Config

end CodeAtlas
