import NodeGraph.Binary64.Layout
import NodeGraph.Graph

/-!
# Listings

The text that shows a graph to its author: a heading that counts nodes and outputs, then a line for
each node with its id, its domain, its kind and the ids it takes inputs from. Numbers in it are
written with the fewest digits and never with an exponent.
-/

namespace NodeGraph

/-- Numbers in a listing: positional throughout, a whole number without a point. -/
def Listing.number : Binary64.Layout where
  positional _ := true
  wholeSuffix := ""
  exponentSign := ""
  tie := .up
  notANumber := "NaN"
  infinite negative := if negative then "-inf" else "inf"

namespace Kind

/-- A kind with its payload, as shown in a listing. A phase of zero is left out. -/
def label : Kind → String
  | .input name => "input " ++ name
  | .constant value => "constant " ++ Listing.number.write value
  | .math op [] => "math " ++ op
  | .math op params =>
    "math " ++ op ++ "(" ++ String.intercalate ", " (params.map Listing.number.write) ++ ")"
  | .wave form phase =>
    if phase.isZero then "wave " ++ form else "wave " ++ form ++ " +" ++ Listing.number.write phase
  | .polar op x y =>
    "polar " ++ op ++ " @(" ++ Listing.number.write x ++ ", " ++ Listing.number.write y ++ ")"
  | .other tag => "other " ++ tag
  | kind => kind.tag

end Kind

namespace Node

/-- A node without its inputs. -/
def label (node : Node) : String :=
  node.id.text ++ " [" ++ node.domain.name ++ "] " ++ node.kind.label

/-- The line of a node. -/
def listingLine (node : Node) : String :=
  let inputs :=
    if node.inputs.isEmpty then ""
    else " <- " ++ String.intercalate ", " (node.inputs.map NodeId.text)
  "  " ++ node.label ++ inputs ++ "\n"

end Node

/-- The listing of a graph. -/
def Graph.listing (g : Graph) : String :=
  let heading :=
    "Graph (" ++ toString g.nodes.length ++ " nodes, " ++ toString g.outputs.length ++ " outputs)\n"
  heading ++ String.join (g.nodes.map Node.listingLine)

end NodeGraph
