import NodeGraph.Binary64.Basic

/-!
# Nodes of a dataflow graph

A node has an id, a numeric domain, a kind with the payload that the kind uses, and the ids of the
nodes it takes its inputs from, in order. An input may be any id: whether it names a node of the
same graph is a question about the graph (`NodeGraph.Validity`). The operator of a mathematical,
wave or polar node is any text; which of them have a meaning is settled by `NodeGraph.Operator`.
-/

namespace NodeGraph

/-! ### Ids -/

/-- The id of a node: a 32-bit number, written `n7`. -/
structure NodeId where
  val : UInt32
deriving DecidableEq

namespace NodeId

/-- The least id. -/
def first : NodeId := ⟨0⟩

/-- The id after this one; the greatest id has none. -/
def next? (id : NodeId) : Option NodeId :=
  if id.val.toNat < 4294967295 then some ⟨id.val + 1⟩ else none

/-- The greater of two ids. -/
def later (a b : NodeId) : NodeId := if a.val < b.val then b else a

/-- The text of an id. -/
def text (id : NodeId) : String := "n" ++ toString id.val.toNat

end NodeId

/-! ### Domains and kinds -/

/-- The numbers a node computes with. -/
inductive Domain where
  /-- Continuous floating values. -/
  | control
  /-- Fixed-point integers, with 3600 units to a full turn. -/
  | visual
deriving DecidableEq

/-- The name of a domain. -/
def Domain.name : Domain → String
  | .control => "control"
  | .visual => "visual"

/-- What a node does, with the payload that it uses. -/
inductive Kind where
  /-- A parameter of the procedure, by its name. -/
  | input (name : String)
  /-- A fixed number. -/
  | constant (value : Binary64)
  /-- Arithmetic on the inputs. -/
  | math (op : String) (params : List Binary64)
  /-- A periodic waveform of the first input; the phase is counted in turns. -/
  | wave (form : String) (phase : Binary64)
  /-- A polar coordinate of a point about a centre. -/
  | polar (op : String) (centerX centerY : Binary64)
  /-- A result of the procedure. -/
  | valueOutput
  /-- A result of the procedure. -/
  | bufferOutput
  /-- A result of the procedure. -/
  | audioOutput
  /-- A kind that has no lowering rule, by its tag. -/
  | other (tag : String)
deriving DecidableEq

namespace Kind

/-- Whether the value of the node is a result of the procedure. -/
def isOutput : Kind → Bool
  | .valueOutput | .bufferOutput | .audioOutput => true
  | _ => false

/-- The short name of a kind; an unknown kind goes by its own tag. -/
def tag : Kind → String
  | .input _ => "input"
  | .constant _ => "constant"
  | .math _ _ => "math"
  | .wave _ _ => "wave"
  | .polar _ _ _ => "polar"
  | .valueOutput => "value_output"
  | .bufferOutput => "buffer_output"
  | .audioOutput => "audio_output"
  | .other tag => tag

/-- Equality with numbers compared as numbers. -/
def agrees : Kind → Kind → Bool
  | .input a, .input b => a == b
  | .constant a, .constant b => a.agrees b
  | .math op ps, .math op' qs =>
    op == op' && ps.length == qs.length && (ps.zip qs).all fun (p, q) => p.agrees q
  | .wave w p, .wave w' p' => w == w' && p.agrees p'
  | .polar op x y, .polar op' x' y' => op == op' && x.agrees x' && y.agrees y'
  | .valueOutput, .valueOutput => true
  | .bufferOutput, .bufferOutput => true
  | .audioOutput, .audioOutput => true
  | .other a, .other b => a == b
  | _, _ => false

end Kind

/-! ### Nodes -/

/-- A node of a dataflow graph. -/
structure Node where
  id : NodeId
  domain : Domain
  kind : Kind
  /-- The nodes it takes its inputs from, in order. -/
  inputs : List NodeId
deriving DecidableEq

/-- Equality with numbers compared as numbers. -/
def Node.agrees (a b : Node) : Bool :=
  a.id == b.id && a.domain == b.domain && a.kind.agrees b.kind && a.inputs == b.inputs

end NodeGraph
