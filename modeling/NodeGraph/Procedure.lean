import NodeGraph.Lowering.Context
import NodeGraph.Validity

/-!
# Procedures

The source of a procedure that computes a graph: comments, imports, a blank line, the signature, the
statements that lowering gives for the outputs, and a line that returns them. `compile` checks the
graph first, then lowers the outputs in stored order through one context. The source is a list of
lines (`Compiled.lines`), each ended by a line feed.
-/

namespace NodeGraph

/-! ### Signatures and options -/

/-- A parameter of a procedure. -/
structure Parameter where
  name : String
  type : String
deriving DecidableEq

/-- What a procedure is called with and what it returns. -/
structure Signature where
  name : String
  params : List Parameter
  returnType : String
deriving DecidableEq

namespace Signature

/-- The type of fixed-point values. -/
def defaultReturnType : String := "int"

/-- A signature with the default return type. -/
def plain (name : String) (params : List Parameter) : Signature :=
  ⟨name, params, defaultReturnType⟩

/-- The update of a particle: position, velocity, age, remaining life, time and time step. -/
def kinematics : Signature :=
  plain "updateParticle"
    (["x", "y", "vx", "vy", "age", "life", "time", "dt"].map fun name => ⟨name, "float"⟩)

end Signature

/-- Which outputs a procedure returns. -/
inductive ReturnMode where
  /-- The first one; the others are computed all the same. -/
  | first
  /-- All of them, as a tuple when there are several. -/
  | all
deriving DecidableEq

/-- How a procedure is to be written. -/
structure Options where
  signature : Signature
  mode : ReturnMode
  /-- Whether comments stand above the imports. -/
  header : Bool
deriving DecidableEq

/-- A procedure that returns its first output, with comments. -/
def Options.plain (signature : Signature) : Options := ⟨signature, .first, true⟩

/-! ### Compiling -/

/-- A lowered graph. -/
structure Compiled where
  /-- The symbols of the outputs, in stored order. -/
  outputs : List Symbol
  body : List Statement
  /-- The primitives that the body calls, in listed order. -/
  used : List Primitive
  /-- The nodes that were given a stand-in value. -/
  placeholders : List Placeholder
deriving DecidableEq

/-- Lower the outputs of a graph in stored order, through one context. -/
def Graph.lowerOutputs (g : Graph) : Context × Except Fault (List Symbol) :=
  lowerEach g.lower (g.outputs.map (·.id)) .empty

/-- Check a graph and lower its outputs. -/
def Graph.compile (g : Graph) : Except Fault Compiled :=
  match g.check with
  | .error fault => .error fault
  | .ok () =>
    match g.lowerOutputs with
    | (_, .error fault) => .error fault
    | (c, .ok outputs) => .ok ⟨outputs, c.statements, c.used, c.placeholders⟩

namespace Compiled

/-! ### Source -/

/-- The comments: who wrote the source, and the primitives it calls. -/
def headerLines (p : Compiled) : List String :=
  let names := p.used.map Primitive.name
  ["# Generated by ngc (node graph compiler)",
    "# primitives: " ++ if names.isEmpty then "none" else String.intercalate ", " names]

/-- The lines that import modules. -/
def importLines (p : Compiled) : List String :=
  (Primitive.imports p.used).map ("import " ++ ·)

/-- Whether the outputs are returned as a tuple. -/
def returnsTuple (p : Compiled) (mode : ReturnMode) : Bool :=
  mode == .all && decide (1 < p.outputs.length)

/-- Items in brackets, as a tuple is written. -/
def tuple (items : List String) : String := "(" ++ String.intercalate ", " items ++ ")"

/-- The line of the signature. -/
def signatureLine (p : Compiled) (options : Options) : String :=
  let signature := options.signature
  let params := signature.params.map fun param => param.name ++ ": " ++ param.type
  let result :=
    if p.returnsTuple options.mode then tuple (p.outputs.map fun _ => signature.returnType)
    else signature.returnType
  "proc " ++ signature.name ++ tuple params ++ ": " ++ result ++ " ="

/-- The value that is returned: the outputs converted to the return type, or zero without any. -/
def returnValue (p : Compiled) (options : Options) : String :=
  let converted := p.outputs.map fun s => options.signature.returnType ++ "(" ++ s.text ++ ")"
  if p.returnsTuple options.mode then tuple converted else converted.head?.getD "0"

/-- The lines of the source. -/
def lines (p : Compiled) (options : Options) : List String :=
  (if options.header then p.headerLines else []) ++ p.importLines ++
    ["", p.signatureLine options] ++ (statementTexts p.body).map ("  " ++ ·) ++
    ["  return " ++ p.returnValue options]

/-- The source. -/
def source (p : Compiled) (options : Options) : String :=
  String.join ((p.lines options).map (· ++ "\n"))

end Compiled

end NodeGraph
