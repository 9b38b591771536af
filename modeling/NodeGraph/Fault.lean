import NodeGraph.Diagnostic

/-!
# Faults of a graph

What can be wrong with the shape of a graph, as causes; `Fault.diagnostic` is their wording.
-/

namespace NodeGraph

/-- The longest dependency chain, in nodes, that is lowered. -/
def maxDepth : Nat := 1024

/-- Something wrong with the shape of a graph. -/
inductive Fault where
  /-- The id of the node at position `again` was already that of the node at position `first`. -/
  | duplicateId (id : NodeId) (first again : Nat)
  /-- A node takes an input from an id that no node has. -/
  | danglingInput (node missing : NodeId)
  /-- A node was met again while its own inputs were being lowered; `loop` is the dependency path
  from it to the node that asked for it. -/
  | cycle (id : NodeId) (loop : List NodeId)
  /-- A node ends a dependency chain that is too long. -/
  | tooDeep (id : NodeId)
  /-- A node was asked for that is not in the graph. -/
  | unknownNode (id : NodeId)
deriving DecidableEq

namespace Fault

/-- The diagnostic of a fault. -/
def diagnostic : Fault → Diagnostic
  | .duplicateId id first again =>
    ((Diagnostic.error .duplicateId ("duplicate node id " ++ id.text)).about id).withCause
      ("first defined at position " ++ toString first ++ ", again at " ++ toString again) none
  | .danglingInput node missing =>
    ((Diagnostic.error .unknownNode
      (node.text ++ " takes input from unknown node " ++ missing.text)).about node).withHint
        "remove the input or add the referenced node"
  | .cycle id loop =>
    loop.foldl (fun d step => d.withCause "on the dependency path" (some step))
      (((Diagnostic.error .cycle
        ("cycle detected: " ++ id.text ++ " depends on itself")).about id).withHint
          "graphs must be acyclic; remove one edge of the loop")
  | .tooDeep id =>
    (Diagnostic.error .tooDeep ("dependency chain deeper than " ++ toString maxDepth ++
      " nodes at " ++ id.text)).about id
  | .unknownNode id => (Diagnostic.error .unknownNode ("unknown node " ++ id.text)).about id

end Fault

end NodeGraph
