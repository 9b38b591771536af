import NodeGraph.Command.Arguments
import NodeGraph.Document.Graph
import NodeGraph.Drawing
import NodeGraph.Provenance

/-!
# Runs of the command

A run reads a document, makes the text of the stage that is asked for, and delivers it to the
standard output or a file. It ends with `0` when the text is delivered, with `1` when the shape of
the graph has a fault, with `2` when a file or the document cannot be read or the output cannot be
written, and with `101` when the ids of the graph leave no id for another node. Only a run that ends
with `0` delivers anything.

Everything up to the writing of a file is a pure function of the settings and of what reading gave
(`Settings.plan`). Around it stand one read and at most one write, and how these are done is left
open: a run takes the operations on files as it finds them (`Files`).
-/

namespace NodeGraph.Command

/-! ### Files -/

/-- Why a file cannot be read or written. -/
inductive FileFault where
  | noSuchFile
  | isDirectory
  | notDirectory
  | nameTooLong
  | noSpace
  /-- The file is not text. -/
  | notText
  /-- Any other reason, in the words of the system. -/
  | other (message : String)
deriving DecidableEq

/-- The wording of a fault. -/
def FileFault.message : FileFault → String
  | .noSuchFile => "No such file or directory (os error 2)"
  | .isDirectory => "Is a directory (os error 21)"
  | .notDirectory => "Not a directory (os error 20)"
  | .nameTooLong => "File name too long (os error 36)"
  | .noSpace => "No space left on device (os error 28)"
  | .notText => "stream did not contain valid UTF-8"
  | .other message => message

/-- The operations on files that a run is given. -/
structure Files (m : Type → Type) where
  /-- Read the file at a path as text. -/
  read (path : String) : m (Except FileFault String)
  /-- Store a text in the file at a path, in place of what was there, or tell why not. -/
  write (path text : String) : m (Option FileFault)

/-! ### Reports and plans -/

/-- How a run ends. -/
structure Report where
  code : Nat
  stdout : String
  stderr : String
deriving DecidableEq

/-- A run that fails with a message. -/
def Report.failure (code : Nat) (message : String) : Report :=
  ⟨code, "", "ngc: " ++ message ++ "\n"⟩

/-- A run that fails because of a file. -/
def Report.fileFailure (path : String) (fault : FileFault) : Report :=
  .failure 2 ("error: " ++ path ++ ": " ++ fault.message)

/-- A run that cannot give ids. -/
def Report.outOfIds : Report := ⟨101, "", "attempt to add with overflow\n"⟩

/-- What to do when the document was read. -/
inductive Plan where
  /-- End. -/
  | finish (report : Report)
  /-- Store a text in a file, and end with what goes to the standard error. -/
  | save (path text stderr : String)
deriving DecidableEq

/-- The warning about a node with a stand-in value. -/
def warningText (p : Placeholder) : String :=
  let warning := (Diagnostic.warning .unhandled ("unhandled " ++ p.detail)).about p.node
  "ngc: " ++ warning.text ++ " (" ++ p.node.text ++ ")\n"

/-- A text that was made, and the warnings about it. -/
structure Rendered where
  text : String
  warnings : String
deriving DecidableEq

namespace Settings

/-- The text of the stage that is asked for. -/
def render (s : Settings) (g : Graph) : Except Fault Rendered :=
  match s.stage with
  | .graph => .ok ⟨g.listing, ""⟩
  | .buildInfo => .ok ⟨g.provenance, ""⟩
  | .dot => g.draw.map (⟨·, ""⟩)
  | .source =>
    g.compile.map fun p =>
      ⟨p.source s.options, String.join (p.placeholders.map warningText)⟩

/-- What to do, given what reading the document gave. -/
def plan (s : Settings) (document : Except FileFault String) : Plan :=
  match document with
  | .error fault => .finish (.fileFailure s.graph fault)
  | .ok text =>
    match Document.load text with
    | .error .outOfIds => .finish .outOfIds
    | .error (.malformed fault) => .finish (.failure 2 fault.diagnostic.text)
    | .ok g =>
      match s.render g with
      | .error fault => .finish (.failure 1 fault.diagnostic.text)
      | .ok rendered =>
        match s.output with
        | none => .finish ⟨0, rendered.text, rendered.warnings⟩
        | some path => .save path rendered.text rendered.warnings

end Settings

/-- The end of a run that stored its text, or failed to. -/
def Report.ofSave (path stderr : String) : Option FileFault → Report
  | none => ⟨0, "", stderr⟩
  | some fault =>
    let failure := fileFailure path fault
    { failure with stderr := stderr ++ failure.stderr }

/-! ### Arguments that stop a run -/

/-- How the command is used. -/
def helpText : String :=
  "ngc: lower an operator graph to straight-line procedure source\n\n" ++
  "usage: ngc [OPTIONS] <GRAPH>\n\n" ++
  "  <GRAPH>                  the graph document\n" ++
  "  -o, --output <PATH>      where the text goes (standard output if omitted)\n" ++
  "      --emit <STAGE>       source, dot, build-info or graph [default: source]\n" ++
  "      --name <NAME>        the name of the procedure [default: evaluateGraph]\n" ++
  "  -p, --param <NAME:TYPE>  a parameter of the procedure; may be repeated\n" ++
  "      --preset <PRESET>    kinematics, instead of a name and parameters\n" ++
  "      --return-type <TYPE> the declared return type [default: int]\n" ++
  "      --all-outputs        return every output as a tuple\n" ++
  "      --no-header          leave out the comments at the top\n" ++
  "      --verbose            accepted for scripts that give it\n" ++
  "  -h, --help               print this text\n" ++
  "  -V, --version            print the version\n"

/-- What a terminal shows about a fault of the arguments. -/
def UsageFault.notice (fault : UsageFault) : String :=
  Text.styled .fault "error:" ++ " " ++ fault.message ++ "\n\nFor more information, try '" ++
    Text.styled .literal "--help" ++ "'.\n"

/-- The end of a run whose arguments stop it. What is wrong with them is told without the terminal
controls that they may hold, and points to the help. -/
def Stop.report : Stop → Report
  | .fault reason => ⟨2, "", Text.plain reason.notice⟩
  | .help => ⟨0, helpText, ""⟩
  | .version => ⟨0, "ngc " ++ NodeGraph.version ++ "\n", ""⟩

/-! ### Running -/

/-- Carry out a plan. -/
def Plan.carryOut {m : Type → Type} [Monad m] (files : Files m) : Plan → m Report
  | .finish report => return report
  | .save path text stderr => return .ofSave path stderr (← files.write path text)

/-- Run the settings. -/
def Settings.run {m : Type → Type} [Monad m] (files : Files m) (s : Settings) : m Report := do
  let document ← files.read s.graph
  (s.plan document).carryOut files

/-- Run the command on some arguments. -/
def run {m : Type → Type} [Monad m] (files : Files m) (arguments : List String) : m Report :=
  match settings arguments with
  | .error stop => return stop.report
  | .ok s => s.run files

end NodeGraph.Command
