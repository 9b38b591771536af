import NodeGraph.Procedure
import NodeGraph.Text.Plain

/-!
# Command-line arguments

The command takes one path, options with a value and flags. A long option is written `--name value`
or `--name=value`, a short one `-p value`, `-pvalue` or `-p=value`; a value of its own must not look
like an option. After `--` every argument is a path. `--param` may be given again and again,
everything else once.

Arguments are taken from left to right and the first fault is told. The value of an option is looked
at when the next argument has been recognised, so that an argument nobody knows is told before a
wrong value in front of it. What contradicts each other, and a path that is missing, is told at the
end.
-/

/-! ### White space -/

namespace NodeGraph.Text

/-- Whether a character has the property White_Space. -/
def isBlank (c : Char) : Bool :=
  let n := c.toNat
  decide (0x9 ≤ n ∧ n ≤ 0xd) || n == 0x20 || n == 0x85 || n == 0xa0 || n == 0x1680 ||
    decide (0x2000 ≤ n ∧ n ≤ 0x200a) || n == 0x2028 || n == 0x2029 || n == 0x202f || n == 0x205f ||
    n == 0x3000

/-- A text without the white space at its ends. -/
def trim (text : String) : String :=
  String.ofList ((text.toList.dropWhile isBlank).reverse.dropWhile isBlank).reverse

end NodeGraph.Text

namespace NodeGraph.Command

/-! ### What can be asked for -/

/-- What is delivered. -/
inductive Stage where
  | source
  | dot
  | buildInfo
  | graph
deriving DecidableEq

namespace Stage

/-- The name of a stage. -/
def name : Stage → String
  | .source => "source"
  | .dot => "dot"
  | .buildInfo => "build-info"
  | .graph => "graph"

/-- All of them. -/
def all : List Stage := [.source, .dot, .buildInfo, .graph]

/-- The stage of a name. -/
def ofName? (name : String) : Option Stage := all.find? fun stage => stage.name == name

end Stage

/-- What a run is asked to do. -/
structure Settings where
  /-- The path of the document. -/
  graph : String
  /-- Where the text goes; to the standard output when there is no path. -/
  output : Option String
  stage : Stage
  options : Options
deriving DecidableEq

/-- The options that take a value. -/
inductive Setting where
  | output
  | emit
  | name
  | param
  | preset
  | returnType
deriving DecidableEq

/-- The flags. -/
inductive Flag where
  | allOutputs
  | noHeader
  | verbose
deriving DecidableEq

/-- What is wrong with the arguments. -/
inductive UsageFault where
  /-- Nobody knows the argument. -/
  | unexpected (argument : String)
  /-- An option has no value. -/
  | missingValue (setting : Setting)
  /-- A flag has a value. -/
  | unneededValue (argument : String)
  /-- An option or a flag is given twice. -/
  | repeated (argument : String)
  /-- A value is not one of those there are. -/
  | invalidValue (setting : Setting) (value : String)
  /-- A parameter is not a name and a type. -/
  | invalidParameter (value : String)
  /-- The path of the document is empty. -/
  | emptyPath
  /-- A preset is given along with the name or a parameter. -/
  | conflict
  /-- The path of the document is missing. -/
  | missingPath
deriving DecidableEq

/-- The wording of a fault, for a terminal. -/
def UsageFault.message : UsageFault → String
  | .unexpected argument => "unexpected argument `" ++ argument ++ "`"
  | .missingValue _ => "an option needs a value"
  | .unneededValue argument => "no value is taken by `" ++ argument ++ "`"
  | .repeated argument => "given more than once: `" ++ argument ++ "`"
  | .invalidValue _ value => "invalid value `" ++ value ++ "`"
  | .invalidParameter value =>
    "invalid value '" ++ Text.styled .invalid value ++ "' for '" ++
      Text.styled .literal "--param <PARAMS>" ++ "': expected `name:type`, got `" ++ value ++ "`"
  | .emptyPath => "the path of the graph document is empty"
  | .conflict => "a preset cannot be given along with a name or parameters"
  | .missingPath => "the path of the graph document is missing"

/-- Why reading the arguments stops before its end. -/
inductive Stop where
  | fault (fault : UsageFault)
  | help
  | version
deriving DecidableEq

/-- What the name of an option or a flag stands for. -/
inductive Switch where
  | setting (setting : Setting)
  | flag (flag : Flag)
  | stop (stop : Stop)
deriving DecidableEq

/-- The long names. -/
def longNames : List (String × Switch) :=
  [("output", .setting .output), ("emit", .setting .emit), ("name", .setting .name),
    ("param", .setting .param), ("preset", .setting .preset),
    ("return-type", .setting .returnType), ("all-outputs", .flag .allOutputs),
    ("no-header", .flag .noHeader), ("verbose", .flag .verbose), ("help", .stop .help),
    ("version", .stop .version)]

/-- The short names. -/
def shortNames : List (Char × Switch) :=
  [('o', .setting .output), ('p', .setting .param), ('h', .stop .help), ('V', .stop .version)]

/-! ### Taking values -/

/-- What was given so far. -/
structure Given where
  graph : Option String := none
  output : Option String := none
  stage : Option Stage := none
  name : Option String := none
  params : List Parameter := []
  preset : Option Signature := none
  returnType : Option String := none
  allOutputs : Bool := false
  noHeader : Bool := false
  verbose : Bool := false
deriving DecidableEq

/-- A parameter: a name and a type with a colon between them, neither of them blank. -/
def parameter? (text : String) : Option Parameter :=
  let name := text.toList.takeWhile (· != ':')
  match text.toList.dropWhile (· != ':') with
  | [] => none
  | _ :: type =>
    let name := Text.trim (String.ofList name)
    let type := Text.trim (String.ofList type)
    if name.isEmpty || type.isEmpty then none else some ⟨name, type⟩

/-- The signature of the name of a preset. -/
def preset? (name : String) : Option Signature :=
  if name = "kinematics" then some .kinematics else none

/-- Set what must be set only once. -/
def once {α : Type} (argument : String) (old : Option α) (new : α) : Except Stop (Option α) :=
  if old.isSome then .error (.fault (.repeated argument)) else .ok (some new)

/-- A value that must be one of those there are. -/
def valid {α : Type} (setting : Setting) (value : String) (found : Option α) : Except Stop α :=
  match found with
  | some a => .ok a
  | none => .error (.fault (.invalidValue setting value))

/-- Take the value of an option. -/
def Given.take (given : Given) (setting : Setting) (value : String) : Except Stop Given := do
  match setting with
  | .output =>
    let path ← valid setting value (if value.isEmpty then none else some value)
    return { given with output := ← once "--output" given.output path }
  | .emit =>
    let stage ← valid setting value (Stage.ofName? value)
    return { given with stage := ← once "--emit" given.stage stage }
  | .name => return { given with name := ← once "--name" given.name value }
  | .param =>
    match parameter? value with
    | some param => return { given with params := given.params ++ [param] }
    | none => throw (.fault (.invalidParameter value))
  | .preset =>
    let preset ← valid setting value (preset? value)
    return { given with preset := ← once "--preset" given.preset preset }
  | .returnType =>
    return { given with returnType := ← once "--return-type" given.returnType value }

/-- Raise a flag. -/
def Given.raise (given : Given) (flag : Flag) : Except Stop Given :=
  match flag with
  | .allOutputs =>
    if given.allOutputs then .error (.fault (.repeated "--all-outputs"))
    else .ok { given with allOutputs := true }
  | .noHeader =>
    if given.noHeader then .error (.fault (.repeated "--no-header"))
    else .ok { given with noHeader := true }
  | .verbose =>
    if given.verbose then .error (.fault (.repeated "--verbose"))
    else .ok { given with verbose := true }

/-- Take the value of the option before, when there is one that was not looked at yet. -/
def Given.settle (given : Given) : Option (Setting × String) → Except Stop Given
  | none => .ok given
  | some (setting, value) => given.take setting value

/-- Take a path, after settling the option before. A second path is not expected. -/
def Given.takePath (given : Given) (pending : Option (Setting × String)) (path : String) :
    Except Stop Given := do
  if given.graph.isSome then throw (.fault (.unexpected path))
  else
    let given ← given.settle pending
    if path.isEmpty then throw (.fault .emptyPath)
    else return { given with graph := some path }

/-! ### Reading the arguments -/

/-- The forms of an argument. -/
inductive Argument where
  /-- The end of the options. -/
  | divider
  | long (name : String) (value : Option String)
  | short (name : Char) (rest : List Char)
  | plain
deriving DecidableEq

/-- The form of an argument. -/
def Argument.ofText (text : String) : Argument :=
  match text.toList with
  | ['-', '-'] => .divider
  | '-' :: '-' :: rest =>
    let name := String.ofList (rest.takeWhile (· != '='))
    match rest.dropWhile (· != '=') with
    | [] => .long name none
    | _ :: value => .long name (some (String.ofList value))
  | '-' :: c :: rest => .short c rest
  | _ => .plain

/-- The option or flag that an argument names, with the value that is attached to it. -/
def Argument.switch? : Argument → Option (Switch × Option String)
  | .long name value => (longNames.lookup name).map (·, value)
  | .short name rest =>
    (shortNames.lookup name).map fun switch =>
      match switch, rest with
      | .setting _, [] => (switch, none)
      | .setting _, '=' :: value => (switch, some (String.ofList value))
      | .setting _, value => (switch, some (String.ofList value))
      | _, _ => (switch, none)
  | .divider | .plain => none

/-- Take the arguments after the divider. -/
def readPaths : List String → Option (Setting × String) → Given → Except Stop Given
  | [], pending, given => given.settle pending
  | path :: rest, pending, given => do readPaths rest none (← given.takePath pending path)

/-- Take the arguments. -/
def readArguments : List String → Option (Setting × String) → Given → Except Stop Given
  | [], pending, given => given.settle pending
  | text :: rest, pending, given =>
    match Argument.ofText text with
    | .divider => readPaths rest pending given
    | .plain => do readArguments rest none (← given.takePath pending text)
    | argument =>
      match argument.switch? with
      | none => .error (.fault (.unexpected text))
      | some (.setting setting, some value) => do
        let given ← given.settle pending
        readArguments rest none (← given.take setting value)
      | some (.setting setting, none) => do
        let given ← given.settle pending
        match rest with
        | [] => throw (.fault (.missingValue setting))
        | value :: rest =>
          if Argument.ofText value = .plain then readArguments rest (some (setting, value)) given
          else throw (.fault (.missingValue setting))
      | some (_, some _) => .error (.fault (.unneededValue text))
      | some (.flag flag, none) => do
        let given ← given.settle pending
        readArguments rest none (← given.raise flag)
      | some (.stop stop, none) => do
        let _ ← given.settle pending
        throw stop

/-- The settings of what was given. -/
def Given.settings (given : Given) : Except Stop Settings :=
  if given.preset.isSome && (given.name.isSome || !given.params.isEmpty) then
    .error (.fault .conflict)
  else
    match given.graph with
    | none => .error (.fault .missingPath)
    | some graph =>
      let signature :=
        given.preset.getD (.plain (given.name.getD "evaluateGraph") given.params)
      let returnType := given.returnType.getD Signature.defaultReturnType
      .ok
        { graph
          output := given.output
          stage := given.stage.getD .source
          options :=
            { signature := { signature with returnType }
              mode := if given.allOutputs then .all else .first
              header := !given.noHeader } }

/-- The settings of some arguments. -/
def settings (arguments : List String) : Except Stop Settings := do
  (← readArguments arguments none {}).settings

end NodeGraph.Command
