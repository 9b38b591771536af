import NodeGraph.Fault
import NodeGraph.Graph

/-!
# Validity and live nodes

A graph is valid when no id is stored twice and every input names a stored node. `index` decides it
and makes the tables of the graph on the way: the position of each id, and how often an id stands
among the inputs. It goes along the nodes twice. First it gives every id its place, and stops at an
id that has one already; then it counts the inputs, and stops at a node with an input that has no
place. So a repeated id is told before any dangling input, and of each the first one in stored
order.

A node is live when an output depends on it, through any number of inputs; an output is live itself.
`live` finds the live ids with a worklist, in the order in which it meets them. An id that was met
before is not expanded again, so cycles end: every step takes one id off the list, and what is put
on it are the inputs of a node that is met for the first time.
-/

namespace NodeGraph

/-! ### Tables -/

/-- The tables of a graph. Of several entries for one id the first counts. -/
structure Index where
  /-- The nodes, in stored order. -/
  nodes : List Node
  /-- The position of each id. -/
  positions : List (NodeId × Nat)
  /-- How often each id stands among the inputs. -/
  counts : List (NodeId × Nat)
deriving DecidableEq

namespace Index

/-- Give a place to the ids of some nodes, the first of which stands at a position. -/
def place :
    (position : Nat) → (placed : List (NodeId × Nat)) → List Node →
      Except Fault (List (NodeId × Nat))
  | _, placed, [] => .ok placed
  | position, placed, node :: rest =>
    match placed.lookup node.id with
    | some first => .error (.duplicateId node.id first position)
    | none => place (position + 1) ((node.id, position) :: placed) rest

/-- Count an id once more. -/
def countUp (counts : List (NodeId × Nat)) (id : NodeId) : List (NodeId × Nat) :=
  (id, (counts.lookup id).getD 0 + 1) :: counts

/-- Count the inputs of some nodes, which all need a place. -/
def count (placed : List (NodeId × Nat)) :
    (counts : List (NodeId × Nat)) → List Node → Except Fault (List (NodeId × Nat))
  | counts, [] => .ok counts
  | counts, node :: rest =>
    match node.inputs.find? fun input => (placed.lookup input).isNone with
    | some missing => .error (.danglingInput node.id missing)
    | none => count placed (node.inputs.foldl countUp counts) rest

/-- The node with an id. -/
def node? (index : Index) (id : NodeId) : Option Node :=
  (index.positions.lookup id).bind fun position => index.nodes[position]?

/-- How often an id stands among the inputs. -/
def fanOut (index : Index) (id : NodeId) : Nat := (index.counts.lookup id).getD 0

end Index

namespace Graph

/-! ### Validity -/

/-- The tables of a valid graph, or the first fault of one that is not valid. -/
def index (g : Graph) : Except Fault Index := do
  let positions ← Index.place 0 [] g.nodes
  let counts ← Index.count positions [] g.nodes
  return ⟨g.nodes, positions, counts⟩

/-- Accept a valid graph, or tell its first fault. -/
def check (g : Graph) : Except Fault Unit := g.index.map fun _ => ()

/-! ### Live nodes -/

/-- The ids that a node takes its inputs from; none for an id that no node has. -/
def inputsOf (g : Graph) (id : NodeId) : List NodeId :=
  match g.node? id with
  | some node => node.inputs
  | none => []

/-- Follow the ids of a worklist, adding those that are met to `seen`. -/
def follow (g : Graph) : (fuel : Nat) → (worklist seen : List NodeId) → List NodeId
  | 0, _, seen => seen
  | _ + 1, [], seen => seen
  | fuel + 1, id :: worklist, seen =>
    if seen.contains id then g.follow fuel worklist seen
    else g.follow fuel (g.inputsOf id ++ worklist) (seen ++ [id])

/-- The ids of the nodes that some output depends on, each once. -/
def live (g : Graph) : List NodeId :=
  let start := g.outputs.map (·.id)
  g.follow (start.length + (g.nodes.flatMap (·.inputs)).length + 1) start []

end Graph

end NodeGraph
