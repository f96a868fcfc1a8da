import DomainModel.Settings.Basic

/-! # Command line options

The arguments are read from left to right, and the first one that settles the matter ends the
reading: an argument that is wrong, or one that asks for the version or for help. Long options take
a value behind an equals sign or as the next argument; short options may stand in one cluster,
whose last option may have its value in the cluster, behind an equals sign or not, or as the next
argument. Behind `--` nothing is an option. No option may be given twice. -/

namespace DomainModel.CommandLine

inductive OutputFormat where
  | text
  | json
deriving DecidableEq

instance : Vocabulary OutputFormat where
  values := [.text, .json]
  word
    | .text => "text"
    | .json => "json"
  find_word := by intro a; cases a <;> rfl

/-- An option that takes a value. -/
inductive ValueOption where
  | config
  | ternary
  | format
deriving DecidableEq

/-- An option that stands for itself. -/
inductive Flag where
  | parallel
  | quiet
  | verbose
deriving DecidableEq

/-- What a name behind a hyphen can mean. -/
inductive Switch where
  | takesValue (option : ValueOption)
  | flag (flag : Flag)
  | version
  | help
deriving DecidableEq

def Switch.ofLong? : String → Option Switch
  | "config" => some (.takesValue .config)
  | "ternary" => some (.takesValue .ternary)
  | "format" => some (.takesValue .format)
  | "parallel" => some (.flag .parallel)
  | "quiet" => some (.flag .quiet)
  | "verbose" => some (.flag .verbose)
  | "version" => some .version
  | "help" => some .help
  | _ => none

def Switch.ofShort? : Char → Option Switch
  | 'c' => some (.takesValue .config)
  | 'q' => some (.flag .quiet)
  | 'v' => some (.flag .verbose)
  | 'V' => some .version
  | 'h' => some .help
  | _ => none

def ValueOption.text : ValueOption → String
  | .config => "--config"
  | .ternary => "--ternary"
  | .format => "--format"

def Flag.text : Flag → String
  | .parallel => "--parallel"
  | .quiet => "--quiet"
  | .verbose => "--verbose"

/-- What is wrong with the arguments. -/
inductive UsageError where
  /-- No option has the name, or a second model is given. -/
  | unexpected (argument : String)
  | missingModel
  /-- A value does not follow, or the model's path is empty. -/
  | missingValue (option : String)
  | needlessValue (option : String)
  | repeated (option : String)
  | invalidValue (option value : String)
deriving DecidableEq

def UsageError.message : UsageError → String
  | unexpected argument => s!"unexpected argument '{argument}'"
  | missingModel => "the argument MODEL is missing"
  | missingValue option => s!"a value is required for '{option}'"
  | needlessValue option => s!"'{option}' takes no value"
  | repeated option => s!"'{option}' cannot be used multiple times"
  | invalidValue option value => s!"invalid value '{value}' for '{option}'"

/-- The options of a run. -/
structure Options where
  /-- The path of the model. -/
  model : String
  /-- The path of the manifest, if it is not to be searched for. -/
  config : Option String
  policy : Option TernaryPolicy
  format : OutputFormat
  parallel : Bool
  /-- Warnings are not shown. -/
  quiet : Bool
  verbose : Bool
deriving DecidableEq

/-- Why the reading of arguments ends before the last one. -/
inductive Stop where
  | version
  | help
  | usage (error : UsageError)
deriving DecidableEq

/-- What has been read so far. -/
structure Draft where
  model : Option String
  config : Option String
  policy : Option TernaryPolicy
  format : Option OutputFormat
  flags : List Flag
deriving DecidableEq

namespace Draft

def empty : Draft := ⟨none, none, none, none, []⟩

def addFlag (d : Draft) (flag : Flag) : Except Stop Draft :=
  if d.flags.contains flag then .error (.usage (.repeated flag.text))
  else .ok { d with flags := flag :: d.flags }

/-- Set what can be set once. -/
def setOnce {α : Type} (option : ValueOption) (value : String) (old : Option α)
    (read : String → Option α) (set : α → Draft) : Except Stop Draft :=
  if old.isSome then .error (.usage (.repeated option.text))
  else match read value with
    | some a => .ok (set a)
    | none => .error (.usage (.invalidValue option.text value))

/-- A path, which is not empty. -/
def pathOf? (value : String) : Option String := if value.isEmpty then none else some value

def addValue (d : Draft) (option : ValueOption) (value : String) : Except Stop Draft :=
  match option with
  | .config => setOnce option value d.config pathOf? fun path => { d with config := some path }
  | .ternary =>
    setOnce option value d.policy Vocabulary.ofWord? fun policy => { d with policy := some policy }
  | .format =>
    setOnce option value d.format Vocabulary.ofWord? fun format => { d with format := some format }

def addModel (d : Draft) (path : String) : Except Stop Draft :=
  if d.model.isSome then .error (.usage (.unexpected path))
  else if path.isEmpty then .error (.usage (.missingValue "MODEL"))
  else .ok { d with model := some path }

/-- The options, once all arguments are read. -/
def finish (d : Draft) : Except Stop Options :=
  match d.model with
  | none => .error (.usage .missingModel)
  | some model =>
    .ok {
      model, config := d.config, policy := d.policy, format := d.format.getD .text
      parallel := d.flags.contains .parallel
      quiet := d.flags.contains .quiet
      verbose := d.flags.contains .verbose }

end Draft

/-- The argument starts like an option and is not a hyphen alone. -/
def looksLikeOption (argument : String) : Bool :=
  argument.startsWith "-" && argument != "-"

/-- Read a long option from its name and the value behind an equals sign. It gives the option whose
value has to follow, if there is one. -/
def readLong (d : Draft) (name : String) (value : Option String) :
    Except Stop (Draft × Option ValueOption) :=
  match Switch.ofLong? name, value with
  | some (.takesValue option), some value => (·, none) <$> d.addValue option value
  | some (.takesValue option), none => .ok (d, some option)
  | some _, some _ => .error (.usage (.needlessValue s!"--{name}"))
  | some (.flag flag), none => (·, none) <$> d.addFlag flag
  | some .version, none => .error .version
  | some .help, none => .error .help
  | none, _ => .error (.usage (.unexpected s!"--{name}"))

/-- Read a cluster of short options. It gives the option whose value has to follow, if there is
one. -/
def readCluster (d : Draft) : List Char → Except Stop (Draft × Option ValueOption)
  | [] => .ok (d, none)
  | c :: rest =>
    match Switch.ofShort? c with
    | some (.takesValue option) =>
      match rest with
      | [] => .ok (d, some option)
      | '=' :: value | value => (·, none) <$> d.addValue option (String.ofList value)
    | some (.flag flag) => do readCluster (← d.addFlag flag) rest
    | some .version => .error .version
    | some .help => .error .help
    | none => .error (.usage (.unexpected (String.ofList ['-', c])))

/-- Read an option from the characters of its argument behind the first hyphen. -/
def readOption (d : Draft) : List Char → Except Stop (Draft × Option ValueOption)
  | '-' :: name =>
    let value := match name.dropWhile (· != '=') with
      | _ :: value => some (String.ofList value)
      | [] => none
    readLong d (String.ofList (name.takeWhile (· != '='))) value
  | cluster => readCluster d cluster

/-- Read arguments. If the value of an option has to follow, the first of them is that value. -/
def readArguments (d : Draft) : Option ValueOption → List String → Except Stop Draft
  | some option, [] => .error (.usage (.missingValue option.text))
  | some option, value :: rest =>
    if looksLikeOption value then .error (.usage (.missingValue option.text))
    else do readArguments (← d.addValue option value) none rest
  | none, [] => .ok d
  | none, argument :: rest =>
    if argument == "--" then rest.foldlM Draft.addModel d
    else if looksLikeOption argument then do
      let (d, awaited) ← readOption d (argument.toList.drop 1)
      readArguments d awaited rest
    else do readArguments (← d.addModel argument) none rest

/-- **The options that arguments describe.** -/
def Options.ofArguments (arguments : List String) : Except Stop Options := do
  (← readArguments .empty none arguments).finish

end DomainModel.CommandLine
