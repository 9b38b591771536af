import NodeGraph.Node

/-!
# Diagnostics

What is told to the author of a graph when something is wrong with it: a message with a severity,
and, when there is one, a stable code, the node it is about, a hint and the links of a cause chain.
A diagnostic is built up from a bare message by `withCode`, `about`, `withHint` and `withCause`; the
causes are kept in the order in which they were given.
-/

namespace NodeGraph

/-- A stable code. -/
inductive Diagnostic.Code where
  /-- Two nodes have one id. -/
  | duplicateId
  /-- An input names no node. -/
  | unknownNode
  /-- A node depends on itself. -/
  | cycle
  /-- A dependency chain is too long. -/
  | tooDeep
  /-- The document is not that of a graph. -/
  | malformed
  /-- A node was given a stand-in value. -/
  | unhandled
deriving DecidableEq

/-- The text of a code. -/
def Diagnostic.Code.text : Diagnostic.Code → String
  | .duplicateId => "E0101"
  | .unknownNode => "E0102"
  | .cycle => "E0103"
  | .tooDeep => "E0104"
  | .malformed => "E0201"
  | .unhandled => "W0301"

/-- How serious a diagnostic is. -/
inductive Diagnostic.Level where
  | error
  | warning
deriving DecidableEq

/-- The name of a level. -/
def Diagnostic.Level.name : Diagnostic.Level → String
  | .error => "error"
  | .warning => "warning"

/-- A link of a cause chain. -/
structure Diagnostic.Cause where
  message : String
  node : Option NodeId
deriving DecidableEq

/-- A message to the author of a graph. -/
structure Diagnostic where
  code : Option Diagnostic.Code
  level : Diagnostic.Level
  /-- The node it is about. -/
  node : Option NodeId
  message : String
  hint : Option String
  causes : List Diagnostic.Cause
deriving DecidableEq

namespace Diagnostic

/-! ### Building -/

/-- A bare message. -/
def plain (level : Level) (message : String) : Diagnostic := ⟨none, level, none, message, none, []⟩

/-- Give it a code. -/
def withCode (d : Diagnostic) (code : Code) : Diagnostic := { d with code := some code }

/-- Say which node it is about. -/
def about (d : Diagnostic) (node : NodeId) : Diagnostic := { d with node := some node }

/-- Give it a hint. -/
def withHint (d : Diagnostic) (hint : String) : Diagnostic := { d with hint := some hint }

/-- Add a cause after the others. -/
def withCause (d : Diagnostic) (message : String) (node : Option NodeId) : Diagnostic :=
  { d with causes := d.causes ++ [⟨message, node⟩] }

/-- An error with a code. -/
def error (code : Code) (message : String) : Diagnostic := (plain .error message).withCode code

/-- A warning with a code. -/
def warning (code : Code) (message : String) : Diagnostic := (plain .warning message).withCode code

/-! ### Text -/

/-- The line of a cause. -/
def Cause.text (cause : Cause) : String :=
  match cause.node with
  | some id => "\n  note: " ++ cause.message ++ " (" ++ id.text ++ ")"
  | none => "\n  note: " ++ cause.message

/-- The text of a diagnostic: level, code and message, then the causes, then the hint. -/
def text (d : Diagnostic) : String :=
  let heading :=
    match d.code with
    | some code => d.level.name ++ "[" ++ code.text ++ "]: "
    | none => d.level.name ++ ": "
  let hint :=
    match d.hint with
    | some hint => "\n  hint: " ++ hint
    | none => ""
  heading ++ d.message ++ String.join (d.causes.map Cause.text) ++ hint

end Diagnostic

end NodeGraph
