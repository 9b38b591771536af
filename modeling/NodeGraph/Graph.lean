import NodeGraph.Node

/-!
# Graphs

A graph is a list of nodes together with its mark, the id that the next added node takes unless the
last stored node is past it. `add?` and `push?` move the mark past the id they store; the edits of
the stored list leave it alone, so an id that was handed out is not handed out again after its node
is removed. Ids are 32-bit numbers, and a node with the greatest id has no id after it: `add?` and
`push?` then give nothing, and the graph stays as it was.

Two graphs agree when their nodes do; the mark does not count.
-/

namespace NodeGraph

/-- An ordered collection of nodes. -/
structure Graph where
  /-- The nodes, in stored order. -/
  nodes : List Node
  /-- Past every id that was handed out, pushed or read so far. -/
  mark : NodeId
deriving DecidableEq

namespace Graph

/-- The graph without nodes. -/
def empty : Graph := ⟨[], .first⟩

/-! ### Growing -/

/-- Store a node after the others, as it is. -/
def push? (g : Graph) (node : Node) : Option Graph :=
  node.id.next?.map fun after => ⟨g.nodes ++ [node], g.mark.later after⟩

/-- The id after that of the last stored node, the least id when there is none. -/
def afterLast? (g : Graph) : Option NodeId :=
  match g.nodes.getLast? with
  | none => some .first
  | some node => node.id.next?

/-- Store a node after the others under the next free id, and tell the id. -/
def add? (g : Graph) (domain : Domain) (kind : Kind) (inputs : List NodeId) :
    Option (NodeId × Graph) := do
  let after ← g.afterLast?
  let id := g.mark.later after
  let grown ← g.push? ⟨id, domain, kind, inputs⟩
  return (id, grown)

/-- The graph of some nodes, whose mark is one past the greatest of their ids. -/
def ofNodes? (nodes : List Node) : Option Graph := do
  let after ← nodes.mapM fun node => node.id.next?
  return ⟨nodes, after.foldl .later .first⟩

/-! ### Editing the stored nodes -/

/-- Store a node after the others without moving the mark. -/
def append (g : Graph) (node : Node) : Graph := { g with nodes := g.nodes ++ [node] }

/-- Drop every node with an id. -/
def remove (g : Graph) (id : NodeId) : Graph :=
  { g with nodes := g.nodes.filter fun node => node.id != id }

/-- Drop every node. -/
def clear (g : Graph) : Graph := { g with nodes := [] }

/-- Turn the stored order round. -/
def reverse (g : Graph) : Graph := { g with nodes := g.nodes.reverse }

/-- Give every node with an id new inputs. -/
def rewire (g : Graph) (id : NodeId) (inputs : List NodeId) : Graph :=
  { g with nodes := g.nodes.map fun node => if node.id = id then { node with inputs } else node }

/-! ### Reading -/

/-- The ids of the nodes, in stored order. -/
def ids (g : Graph) : List NodeId := g.nodes.map (·.id)

/-- The nodes whose value is a result of the procedure, in stored order. -/
def outputs (g : Graph) : List Node := g.nodes.filter (·.kind.isOutput)

/-- The first stored node with an id. -/
def node? (g : Graph) (id : NodeId) : Option Node := g.nodes.find? fun node => node.id == id

/-- Whether two graphs have the same nodes in the same order, numbers compared as numbers. -/
def agrees (g h : Graph) : Bool :=
  g.nodes.length == h.nodes.length && (g.nodes.zip h.nodes).all fun (a, b) => a.agrees b

end Graph

end NodeGraph
