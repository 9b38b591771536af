import NodeGraph.Document.Malformed
import NodeGraph.Graph

/-!
# Canonical documents

The document of a graph without any blank, every field written out in a fixed order: the id, the
domain, the kind, the payload of the kind, the inputs. Equal graphs have one canonical document.

A string is written between quotation marks; a quotation mark, a backslash and the controls below
the space are escaped, and every other character stands for itself.
-/

/-! ### Digits of base sixteen -/

namespace NodeGraph.Text

/-- The digit of a number below sixteen. -/
def hexDigit (n : Nat) : Char := "0123456789abcdef".toList.getD n '0'

/-- A byte, as two digits. -/
def hexByte (n : Nat) : List Char := [hexDigit (n / 16), hexDigit (n % 16)]

end NodeGraph.Text

namespace NodeGraph.Document

/-! ### Strings -/

/-- A character inside a string. -/
def stringChar (c : Char) : List Char :=
  match c with
  | '"' => ['\\', '"']
  | '\\' => ['\\', '\\']
  | '\x08' => ['\\', 'b']
  | '\t' => ['\\', 't']
  | '\n' => ['\\', 'n']
  | '\x0c' => ['\\', 'f']
  | '\r' => ['\\', 'r']
  | c =>
    if c.toNat < 0x20 then ['\\', 'u', '0', '0'] ++ Text.hexByte c.toNat else [c]

/-- A string, with its quotation marks. -/
def stringText (s : String) : List Char := '"' :: s.toList.flatMap stringChar ++ ['"']

/-! ### Graphs -/

/-- A list, by the texts of its elements. -/
def listText (items : List (List Char)) : List Char := '[' :: [','].intercalate items ++ [']']

/-- An object, by its keys and the texts of its values. -/
def objectText (members : List (String × List Char)) : List Char :=
  '\x7b' :: [','].intercalate (members.map fun (key, value) => stringText key ++ ':' :: value) ++
    ['\x7d']

/-- An id. -/
def idText (id : NodeId) : List Char := Nat.toDigits 10 id.val.toNat

/-- A number. -/
def numberText (v : Binary64) : List Char := (numberLayout.write v).toList

/-- The members of a kind: its name, then its payload. -/
def kindMembers : Kind → List (String × List Char)
  | .input name => [("kind", stringText "input"), ("name", stringText name)]
  | .constant value => [("kind", stringText "constant"), ("value", numberText value)]
  | .math op params =>
    [("kind", stringText "math"), ("op", stringText op),
      ("params", listText (params.map numberText))]
  | .wave form phase =>
    [("kind", stringText "wave"), ("wave", stringText form), ("phase", numberText phase)]
  | .polar op centerX centerY =>
    [("kind", stringText "polar"), ("op", stringText op), ("center_x", numberText centerX),
      ("center_y", numberText centerY)]
  | .valueOutput => [("kind", stringText "value_output")]
  | .bufferOutput => [("kind", stringText "buffer_output")]
  | .audioOutput => [("kind", stringText "audio_output")]
  | .other tag => [("kind", stringText "other"), ("tag", stringText tag)]

/-- A node. -/
def nodeText (node : Node) : List Char :=
  objectText ([("id", idText node.id), ("domain", stringText node.domain.name)] ++
    kindMembers node.kind ++ [("inputs", listText (node.inputs.map idText))])

/-- The characters of the canonical document of some nodes. -/
def canonicalText (nodes : List Node) : List Char :=
  objectText [("nodes", listText (nodes.map nodeText))]

end NodeGraph.Document

namespace NodeGraph

/-- The canonical document of a graph. -/
def Graph.canonical (g : Graph) : String := String.ofList (Document.canonicalText g.nodes)

end NodeGraph
