import NodeGraph.Listing
import NodeGraph.Validity

/-!
# Drawings

A graph as a drawing in the DOT language: a statement for each node in stored order, and one for
each input. The label of a node is its id over its kind. A visual node is filled, a node that no
output depends on is dashed and gray, a live node without a lowering rule is red, and one that feeds
more than one input is drawn bold. An edge tells its slot when its node has more than one input.
-/

namespace NodeGraph

namespace Drawing

/-- The shape of a kind. -/
def shape : Kind → String
  | .input _ => "invhouse"
  | .constant _ => "plaintext"
  | .math _ _ | .polar _ _ _ => "box"
  | .wave _ _ => "ellipse"
  | .valueOutput | .bufferOutput | .audioOutput => "doublecircle"
  | .other _ => "octagon"

/-- Put a backslash before every quotation mark. -/
def escape (text : String) : String :=
  String.ofList (text.toList.flatMap fun c => if c = '"' then ['\\', '"'] else [c])

/-- A label: the id and the kind, with a line break as the DOT language writes it. -/
def label (node : Node) : String := node.id.text ++ "\\n" ++ node.kind.label

/-- Whether a kind has no lowering rule. -/
def isUnknown : Kind → Bool
  | .other _ => true
  | _ => false

/-- The attributes of a node. -/
def attributes (node : Node) (live bold : Bool) : List String :=
  let visual := decide (node.domain = .visual)
  let styles := (if visual then ["filled"] else []) ++ if live then [] else ["dashed"]
  ["label=\"" ++ escape (label node) ++ "\"", "shape=" ++ shape node.kind] ++
    (if visual then ["fillcolor=lightblue"] else []) ++
    (if live then (if isUnknown node.kind then ["color=red"] else []) else ["color=gray60"]) ++
    (if bold then ["penwidth=2"] else []) ++
    if styles.isEmpty then [] else ["style=\"" ++ String.intercalate "," styles ++ "\""]

/-- The statement of a node. -/
def nodeLine (index : Index) (live : List NodeId) (node : Node) : String :=
  let attributes := attributes node (live.contains node.id) (decide (1 < index.fanOut node.id))
  "    " ++ node.id.text ++ " [" ++ String.intercalate ", " attributes ++ "];"

/-- The statements of the inputs of a node. -/
def edgeLines (node : Node) : List String :=
  node.inputs.mapIdx fun slot input =>
    let label :=
      if 1 < node.inputs.length then " [label=\"" ++ toString slot ++ "\"]" else ""
    "    " ++ input.text ++ " -> " ++ node.id.text ++ label ++ ";"

/-- The lines above the nodes. -/
def preamble : List String :=
  ["digraph ngc \x7b", "    rankdir=LR;", "    node [fontname=\"Helvetica\", fontsize=10];",
    "    edge [fontname=\"Helvetica\", fontsize=9];", ""]

/-- The lines of a drawing. -/
def lines (g : Graph) (index : Index) : List String :=
  preamble ++ g.nodes.map (nodeLine index g.live) ++ [""] ++ g.nodes.flatMap edgeLines ++ ["\x7d"]

end Drawing

/-- Draw a valid graph. -/
def Graph.draw (g : Graph) : Except Fault String :=
  match g.index with
  | .error fault => .error fault
  | .ok index => .ok (String.join ((Drawing.lines g index).map (· ++ "\n")))

end NodeGraph
