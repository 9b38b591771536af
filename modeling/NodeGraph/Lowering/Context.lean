import NodeGraph.Fault
import NodeGraph.Graph
import NodeGraph.Lowering.Rule

/-!
# Lowering

Lowering walks a graph from a node down its inputs and writes each node it meets after the nodes it
depends on, at most once: the symbol of a node that was lowered is remembered in the `Context`, and
a later request for it is answered from there. Every statement defines a new variable, whose number
is counted in the context; with the statements go the primitives they call and the nodes that were
given a stand-in value.

A node that is met again while its own inputs are being lowered depends on itself, and a path of
more than `maxDepth` nodes is not followed. Either ends the request with a `Fault`. The context then
keeps what was lowered, and also the path as it was at the fault, which later requests on the same
context see.
-/

namespace NodeGraph

/-- A statement of a generated body. -/
structure Statement where
  /-- The number of the variable it defines. -/
  index : Nat
  /-- The node it computes. -/
  node : NodeId
  expr : Expr Symbol
  /-- What was not handled, when its value is a stand-in. -/
  unhandled : Option String
deriving DecidableEq

/-- The text of a statement. -/
def Statement.text (s : Statement) : String :=
  let comment :=
    match s.unhandled with
    | some detail => "  # unhandled " ++ detail
    | none => ""
  "let " ++ variableName s.index ++ " = " ++ s.expr.text ++ comment

/-- A node with a stand-in value, and what was not handled. -/
structure Placeholder where
  node : NodeId
  detail : String
deriving DecidableEq

/-! ### Bodies -/

/-- The texts of some statements. -/
def statementTexts (body : List Statement) : List String :=
  body.map Statement.text

/-- The primitives that some statements call, in listed order. -/
def usedPrimitives (body : List Statement) : List Primitive :=
  Primitive.sorted (body.filterMap (·.expr.primitive?))

/-- The nodes with a stand-in value, in the order of their statements. -/
def placeholders (body : List Statement) : List Placeholder :=
  body.filterMap fun s => s.unhandled.map (⟨s.node, ·⟩)

/-! ### Contexts -/

/-- The state of lowering. -/
structure Context where
  /-- The symbols of the nodes that were lowered, the latest first. -/
  symbols : List (NodeId × Symbol)
  /-- The number of the next variable. -/
  counter : Nat
  /-- The statements so far. -/
  statements : List Statement
  /-- The primitives that were called so far, in listed order. -/
  used : List Primitive
  /-- The nodes that were given a stand-in value so far. -/
  placeholders : List Placeholder
  /-- The nodes whose inputs are being lowered, the innermost first. -/
  path : List NodeId
  /-- The same nodes as a set. -/
  onPath : List NodeId
deriving DecidableEq

namespace Context

/-- Nothing is lowered yet. -/
def empty : Context := ⟨[], 0, [], [], [], [], []⟩

/-- The symbol of a node that was lowered. -/
def symbol? (c : Context) (id : NodeId) : Option Symbol := c.symbols.lookup id

/-- Remember the symbol of a node. -/
def bind (c : Context) (id : NodeId) (s : Symbol) : Context :=
  { c with symbols := (id, s) :: c.symbols }

/-- Write a statement that defines the next variable. -/
def write (c : Context) (id : NodeId) (expr : Expr Symbol) (unhandled : Option String) : Context :=
  { c with
    counter := c.counter + 1
    statements := c.statements ++ [⟨c.counter, id, expr, unhandled⟩] }

/-- Record the primitive that a right-hand side calls. -/
def call (c : Context) : Option Primitive → Context
  | some p => { c with used := Primitive.sorted (p :: c.used) }
  | none => c

/-- Record that a node was given a stand-in value. -/
def report (c : Context) (p : Placeholder) : Context :=
  { c with placeholders := c.placeholders ++ [p] }

/-- Lower a node whose inputs have symbols. -/
def settle (c : Context) (node : Node) (args : List Symbol) : Context × Symbol :=
  match node.lowered args with
  | .parameter name => (c.bind node.id (.parameter name), .parameter name)
  | .same s => (c.bind node.id s, s)
  | .assign expr =>
    let s := Symbol.var c.counter
    (((c.call expr.primitive?).write node.id expr none).bind node.id s, s)
  | .standIn expr detail =>
    let s := Symbol.var c.counter
    (((c.write node.id expr (some detail)).report ⟨node.id, detail⟩).bind node.id s, s)

/-- Start on the inputs of a node. -/
def enter (c : Context) (id : NodeId) : Context :=
  { c with path := id :: c.path, onPath := id :: c.onPath }

/-- Leave a node whose inputs were lowered, the innermost one. -/
def leave (c : Context) (id : NodeId) : Context :=
  { c with path := c.path.tail, onPath := c.onPath.filter (· != id) }

/-- The path from a node on it to the innermost one. -/
def pathFrom (c : Context) (id : NodeId) : List NodeId :=
  let outermost := c.path.reverse
  outermost.drop ((outermost.idxOf? id).getD 0)

/-- What is known of a node without looking into it: its symbol, or that it is being lowered. -/
def known? (c : Context) (id : NodeId) : Option (Except Fault Symbol) :=
  match c.symbol? id with
  | some s => some (.ok s)
  | none => if c.onPath.contains id then some (.error (.cycle id (c.pathFrom id))) else none

end Context

/-! ### Requests -/

/-- Lower some nodes one after the other, up to the first fault. -/
def lowerEach (lower : NodeId → Context → Context × Except Fault Symbol) :
    List NodeId → Context → Context × Except Fault (List Symbol)
  | [], c => (c, .ok [])
  | id :: rest, c =>
    match lower id c with
    | (c, .error fault) => (c, .error fault)
    | (c, .ok s) =>
      match lowerEach lower rest c with
      | (c, .error fault) => (c, .error fault)
      | (c, .ok ss) => (c, .ok (s :: ss))

namespace Graph

/-- Lower a node and all it depends on, with room for so many more nodes on the path. -/
def lowerWithin (g : Graph) : (room : Nat) → NodeId → Context → Context × Except Fault Symbol
  | 0, id, c => (c, (c.known? id).getD (.error (.tooDeep id)))
  | room + 1, id, c =>
    match c.known? id with
    | some answer => (c, answer)
    | none =>
      match g.node? id with
      | none => (c, .error (.unknownNode id))
      | some node =>
        match lowerEach (g.lowerWithin room) node.inputs (c.enter id) with
        | (c, .error fault) => (c, .error fault)
        | (c, .ok args) =>
          let (c, s) := (c.leave id).settle node args
          (c, .ok s)

/-- Lower a node and all it depends on, and tell its symbol. -/
def lower (g : Graph) (id : NodeId) (c : Context) : Context × Except Fault Symbol :=
  g.lowerWithin (maxDepth - c.path.length) id c

end Graph

end NodeGraph
