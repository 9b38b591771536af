import Mathlib.Algebra.Group.Nat.Even
import NodeGraph.Proofs.Drawing
import NodeGraph.Proofs.SourceLines

/-!
# The ends of labels

The label of a node stands between quotation marks. Its reader goes from left to right, takes a
backslash together with the character after it, and stops at the first other quotation mark
(`Drawing.afterString`). A quotation mark inside a label is written with a backslash before it, but
a backslash is written as it is. So whether a quotation mark is taken for the end depends on the
backslashes that an author has put in front of it: an odd number of them takes the written
backslash along and leaves the quotation mark bare, and at the end of the label it takes the closing
quotation mark along (`label_escapes_backslashGraph`).

`label_ends_iff` says exactly when a label is read to its closing quotation mark: when no quotation
mark in it, nor its end, comes after an odd number of backslashes. So quotation marks alone do no
harm.
-/

namespace NodeGraph

namespace Drawing

/-! ### Reading a quoted string -/

/-- What is left of a text after the quotation mark that ends a string, from a place in the string
on. A backslash takes the next character with it. -/
def afterString : List Char → Option (List Char)
  | [] => none
  | '"' :: rest => some rest
  | '\\' :: _ :: rest => afterString rest
  | _ :: rest => afterString rest

@[simp] theorem afterString_quote (rest : List Char) : afterString ('"' :: rest) = some rest := by
  simp [afterString]

@[simp] theorem afterString_backslash (c : Char) (rest : List Char) :
    afterString ('\\' :: c :: rest) = afterString rest := by
  simp [afterString]

theorem afterString_cons {c : Char} (quote : c ≠ '"') (backslash : c ≠ '\\') (rest : List Char) :
    afterString (c :: rest) = afterString rest := by
  rw [afterString]
  · exact fun h => quote h
  · exact fun _ _ h => absurd h backslash

/-- What is left is shorter, by the quotation mark at least. -/
theorem length_of_afterString {l rest : List Char} (h : afterString l = some rest) :
    rest.length < l.length := by
  fun_induction afterString l with
  | case1 => cases h
  | case2 => cases h; exact Nat.lt_succ_self _
  | case3 _ _ ih => exact Nat.lt_succ_of_lt (Nat.lt_succ_of_lt (ih h))
  | case4 _ _ _ _ ih => exact Nat.lt_succ_of_lt (ih h)

/-! ### Backslashes -/

/-- How many backslashes a text ends with. -/
def trailing (text : List Char) : Nat := (text.reverse.takeWhile (· == '\\')).length

theorem trailing_le (text : List Char) : trailing text ≤ text.length := by
  rw [← List.length_reverse]
  exact (List.takeWhile_sublist _).length_le

theorem trailing_cons (c : Char) (text : List Char) :
    trailing (c :: text) =
      if c = '\\' ∧ trailing text = text.length then trailing text + 1 else trailing text := by
  unfold trailing
  rw [List.reverse_cons, List.takeWhile_append, List.length_reverse]
  by_cases whole : (text.reverse.takeWhile (· == '\\')).length = text.length
  · by_cases backslash : c = '\\' <;> simp [whole, backslash]
  · simp [whole]

/-- A backslash and the character after it leave the parity as it is. -/
theorem even_trailing_cons_cons (c : Char) (text : List Char) :
    Even (trailing ('\\' :: c :: text)) ↔ Even (trailing text) := by
  have short := trailing_le text
  by_cases whole : c = '\\' ∧ trailing text = text.length
  · have one : trailing (c :: text) = trailing text + 1 := by rw [trailing_cons, if_pos whole]
    have two : trailing ('\\' :: c :: text) = trailing text + 2 := by
      rw [trailing_cons, one, if_pos ⟨rfl, by rw [whole.2, List.length_cons]⟩]
    rw [two, Nat.even_add, iff_true_right (show Even 2 by decide)]
  · have zero : trailing (c :: text) = trailing text := by rw [trailing_cons, if_neg whole]
    have apart : trailing (c :: text) ≠ (c :: text).length := by
      rw [zero, List.length_cons]
      omega
    rw [trailing_cons, if_neg fun h => apart h.2, zero]

/-- No quotation mark of a text comes after an odd number of backslashes, and neither does one that
is put behind the text. -/
def Contained (text : List Char) : Prop :=
  ∀ before after, text ++ ['"'] = before ++ '"' :: after → Even (trailing before)

theorem contained_nil : Contained [] := by
  intro before after split
  cases before with
  | nil => decide
  | cons c before => simp at split

theorem contained_cons {c : Char} (backslash : c ≠ '\\') (text : List Char) :
    Contained (c :: text) ↔ Contained text := by
  have same (before : List Char) : trailing (c :: before) = trailing before := by
    rw [trailing_cons, if_neg fun h => backslash h.1]
  constructor
  · intro h before after split
    rw [← same]
    exact h (c :: before) after (by rw [List.cons_append, split, List.cons_append])
  · intro h before after split
    cases before with
    | nil => decide
    | cons d before =>
      rw [List.cons_append, List.cons_append, List.cons.injEq] at split
      obtain ⟨rfl, split⟩ := split
      rw [same]
      exact h before after split

theorem contained_backslash {c : Char} (quote : c ≠ '"') (text : List Char) :
    Contained ('\\' :: c :: text) ↔ Contained text := by
  constructor
  · intro h before after split
    rw [← even_trailing_cons_cons c]
    refine h ('\\' :: c :: before) after ?_
    rw [List.cons_append, List.cons_append, split, List.cons_append, List.cons_append]
  · intro h before after split
    rcases before with _ | ⟨d, _ | ⟨e, before⟩⟩
    · simp at split
    · simp only [List.cons_append, List.nil_append, List.cons.injEq] at split
      exact absurd split.2.1 quote
    · simp only [List.cons_append, List.cons.injEq] at split
      obtain ⟨rfl, rfl, split⟩ := split
      rw [even_trailing_cons_cons]
      exact h before after split

/-- What has no backslash can be left out in front. -/
theorem contained_append {front : List Char} (clean : '\\' ∉ front) (text : List Char) :
    Contained (front ++ text) ↔ Contained text := by
  induction front with
  | nil => exact Iff.rfl
  | cons c front ih =>
    rw [List.mem_cons, not_or] at clean
    rw [List.cons_append, contained_cons (Ne.symm clean.1), ih clean.2]

theorem contained_of_clean {text : List Char} (clean : '\\' ∉ text) : Contained text := by
  have := (contained_append clean []).mpr contained_nil
  rwa [List.append_nil] at this

/-! ### Reading what is written -/

/-- The characters of an escaped text. -/
def escaped (text : List Char) : List Char :=
  text.flatMap fun c => if c = '"' then ['\\', '"'] else [c]

theorem toList_escape (text : String) : (escape text).toList = escaped text.toList :=
  String.toList_ofList

@[simp] theorem escaped_nil : escaped [] = [] := rfl

@[simp] theorem escaped_quote (text : List Char) :
    escaped ('"' :: text) = '\\' :: '"' :: escaped text := rfl

theorem escaped_cons {c : Char} (quote : c ≠ '"') (text : List Char) :
    escaped (c :: text) = c :: escaped text := by
  rw [escaped, List.flatMap_cons, if_neg quote]
  rfl

/-- **A text is read to its end exactly when it is contained**: the quotation mark behind its
written form is the one that ends the string. -/
theorem afterString_escaped_iff (rest : List Char) : ∀ text : List Char,
    afterString (escaped text ++ '"' :: rest) = some rest ↔ Contained text
  | [] => iff_of_true (afterString_quote rest) contained_nil
  | c :: text => by
    by_cases quote : c = '"'
    · subst quote
      rw [contained_cons (by decide), ← afterString_escaped_iff rest text, escaped_quote,
        List.cons_append, List.cons_append, afterString_backslash]
    rw [escaped_cons quote, List.cons_append]
    by_cases backslash : c = '\\'
    · subst backslash
      -- the backslash goes with what is written next
      cases text with
      | nil =>
        refine iff_of_false (fun h => ?_) fun h => absurd (h ['\\'] [] rfl) (by decide)
        rw [escaped_nil, List.nil_append, afterString_backslash] at h
        exact absurd (length_of_afterString h) (Nat.lt_irrefl _)
      | cons d text =>
        by_cases quote : d = '"'
        · subst quote
          refine iff_of_false (fun h => ?_) fun h => absurd (h ['\\'] _ rfl) (by decide)
          rw [escaped_quote, List.cons_append, List.cons_append, afterString_backslash,
            afterString_quote, Option.some.injEq] at h
          have := congrArg List.length h
          rw [List.length_append, List.length_cons] at this
          omega
        · rw [contained_backslash quote, ← afterString_escaped_iff rest text, escaped_cons quote,
            List.cons_append, afterString_backslash]
    · rw [contained_cons backslash, afterString_cons quote backslash,
        afterString_escaped_iff rest text]

end Drawing

/-! ### Labels -/

theorem Numeral.clean {text : String} (h : Numeral text) : '\\' ∉ text.toList :=
  fun found => absurd (h '\\' found) (by decide)

/-- A kind is shown without backslashes when its author has written none. -/
theorem Kind.clean_label {kind : Kind} (clean : ∀ t ∈ kind.texts, '\\' ∉ t.toList) :
    '\\' ∉ kind.label.toList := by
  have number (v : Binary64) : '\\' ∉ (Listing.number.write v).toList :=
    (Binary64.Layout.numeral_write Listing.numerals_number v).clean
  have numbers (params : List Binary64) :
      '\\' ∉ (", ".intercalate (params.map Listing.number.write)).toList := by
    refine (not_mem_intercalate (by decide) _).mpr fun t ht => ?_
    obtain ⟨v, -, rfl⟩ := List.mem_map.mp ht
    exact number v
  have text (t : String) (ht : t ∈ kind.texts) : '\\' ∉ t.toList := clean t ht
  cases kind with
  | input name => simpa [Kind.label] using text name (by simp [Kind.texts])
  | constant v => simpa [Kind.label] using number v
  | math op params =>
    have op := text op (by simp [Kind.texts])
    cases params with
    | nil => simpa [Kind.label] using op
    | cons p params => simpa [Kind.label, op] using numbers (p :: params)
  | wave form phase =>
    have form := text form (by simp [Kind.texts])
    cases zero : phase.isZero <;> simp [Kind.label, zero, form, number]
  | polar op x y => simp [Kind.label, number, text op (by simp [Kind.texts])]
  | valueOutput | bufferOutput | audioOutput => decide
  | other tag => simpa [Kind.label] using text tag (by simp [Kind.texts])

namespace Drawing

/-- The id and the line break in front of a kind do not matter. -/
theorem contained_label (node : Node) :
    Contained (label node).toList ↔ Contained node.kind.label.toList := by
  have id : Numeral node.id.text := numeral_append.mpr ⟨by decide, numeral_repr _⟩
  rw [label, String.toList_append, String.toList_append, List.append_assoc,
    contained_append id.clean]
  exact contained_backslash (by decide) _

/-- The text of a drawing up to the quotation mark that opens the label of a node, which stands
behind some others. -/
def upToLabel (index : Index) (live : List NodeId) (before : List Node) (node : Node) : String :=
  String.join ((preamble ++ before.map (nodeLine index live)).map (· ++ "\n")) ++ "    " ++
    node.id.text ++ " [label=\""

/-- The line of a node begins with its label. -/
theorem exists_nodeLine (index : Index) (live : List NodeId) (node : Node) :
    ∃ rest, nodeLine index live node =
      "    " ++ node.id.text ++ " [label=\"" ++ escape (label node) ++ "\"" ++ rest := by
  refine ⟨", " ++ String.intercalate ", " (("shape=" ++ shape node.kind) ::
    marks (decide (node.domain = .visual)) (live.contains node.id) (isUnknown node.kind)
      (decide (1 < index.fanOut node.id))) ++ "];", ?_⟩
  rw [nodeLine, attributes_eq, String.intercalate_cons_cons]
  simp only [String.append_assoc]
  rfl

/-- Reading from the opening quotation mark on is reading what stands behind it. -/
theorem drop_opening (opening inside : String) :
    (opening ++ inside).toList.drop opening.length = inside.toList := by
  rw [String.toList_append, ← String.length_toList, List.drop_left]

/-- The label of a stored node stands in the drawing behind the lines of the nodes before it. -/
theorem exists_text {g : Graph} (index : Index) {before after : List Node} {node : Node}
    (stored : g.nodes = before ++ node :: after) :
    ∃ rest, String.join ((lines g index).map (· ++ "\n")) =
      upToLabel index g.live before node ++ escape (label node) ++ "\"" ++ rest := by
  obtain ⟨rest, line⟩ := exists_nodeLine index g.live node
  obtain ⟨later, split⟩ : ∃ later, lines g index =
      (preamble ++ before.map (nodeLine index g.live)) ++ nodeLine index g.live node :: later := by
    refine ⟨after.map (nodeLine index g.live) ++ [""] ++ g.nodes.flatMap edgeLines ++ ["\x7d"], ?_⟩
    simp [lines, stored]
  refine ⟨rest ++ "\n" ++ String.join (later.map (· ++ "\n")), ?_⟩
  rw [split, List.map_append, List.map_cons, String.join_append, String.join_cons, line, upToLabel]
  simp only [String.append_assoc]

end Drawing

/-- **When labels stay inside their quotation marks.** Let a graph have an index. The drawing has
the label of each stored node between quotation marks, behind the lines of the nodes before it. Read
from the opening one on, the string ends at the closing one exactly when no quotation mark in the
text of the kind, nor the end of this text, comes after an odd number of backslashes. So it does
whenever the author of the node has written no backslash, whatever else the texts of the node
are. -/
theorem label_ends_iff {g : Graph} {index : Index} (indexed : g.index = .ok index)
    {before after : List Node} {node : Node} (stored : g.nodes = before ++ node :: after) :
    let opening := Drawing.upToLabel index g.live before node
    ∃ text rest, g.draw = .ok text ∧
      text = opening ++ Drawing.escape (Drawing.label node) ++ "\"" ++ rest ∧
      (Drawing.afterString (text.toList.drop opening.length) = some rest.toList ↔
        Drawing.Contained node.kind.label.toList) ∧
      ((∀ t ∈ node.kind.texts, '\\' ∉ t.toList) →
        Drawing.afterString (text.toList.drop opening.length) = some rest.toList) := by
  intro opening
  obtain ⟨rest, drawing⟩ := Drawing.exists_text index stored
  refine ⟨_, rest, by rw [Graph.draw, indexed], drawing, ?_⟩
  have inside : (String.join ((Drawing.lines g index).map (· ++ "\n"))).toList.drop
      opening.length = Drawing.escaped (Drawing.label node).toList ++ '"' :: rest.toList := by
    rw [drawing, String.append_assoc, String.append_assoc, Drawing.drop_opening,
      String.toList_append, String.toList_append, Drawing.toList_escape]
    rfl
  have iff : Drawing.afterString (Drawing.escaped (Drawing.label node).toList ++
      '"' :: rest.toList) = some rest.toList ↔ Drawing.Contained node.kind.label.toList :=
    (Drawing.afterString_escaped_iff _ _).trans (Drawing.contained_label node)
  rw [inside]
  exact ⟨iff, fun clean => iff.mpr (Drawing.contained_of_clean (Kind.clean_label clean))⟩

/-- A parameter whose name ends with a backslash, and a node of an unknown kind whose tag has a
backslash before a quotation mark. -/
def backslashGraph : Graph :=
  ⟨[⟨⟨0⟩, .control, .input "dir\\", []⟩, ⟨⟨1⟩, .control, .other "a\\\"b", []⟩,
    ⟨⟨2⟩, .control, .valueOutput, [⟨0⟩, ⟨1⟩]⟩], ⟨3⟩⟩

/-- The last label of `backslashGraph` has no backslash of an author and is read to its closing
quotation mark. -/
theorem label_ends_backslashGraph :
    ∃ index text rest, backslashGraph.index = .ok index ∧ backslashGraph.draw = .ok text ∧
      let opening := Drawing.upToLabel index backslashGraph.live (backslashGraph.nodes.take 2)
        ⟨⟨2⟩, .control, .valueOutput, [⟨0⟩, ⟨1⟩]⟩
      text = opening ++ "n2\\nvalue_output" ++ "\"" ++ rest ∧
      Drawing.afterString (text.toList.drop opening.length) = some rest.toList := by
  obtain ⟨index, indexed⟩ : ∃ index, backslashGraph.index = .ok index := ⟨_, rfl⟩
  have stored : backslashGraph.nodes = backslashGraph.nodes.take 2 ++
      ⟨⟨2⟩, .control, .valueOutput, [⟨0⟩, ⟨1⟩]⟩ :: [] := rfl
  obtain ⟨text, rest, drawn, written, -, ends⟩ := label_ends_iff indexed stored
  exact ⟨index, text, rest, indexed, drawn, written, ends fun _ ht => nomatch ht⟩

/-- In the drawing of `backslashGraph` the label of `n0` does not end at its closing quotation mark
but at the one that opens the label of `n1`, and the label of `n1` ends at the quotation mark inside
of its tag. -/
theorem label_escapes_backslashGraph :
    let tail := ", shape=octagon, color=red];\n    n2 [label=\"n2\\nvalue_output\", " ++
      "shape=doublecircle];\n\n    n0 -> n2 [label=\"0\"];\n    n1 -> n2 [label=\"1\"];\n\x7d\n"
    let second := "n1\\nother a\\\\\"b" ++ ("\"" ++ tail)
    let first := "n0\\ninput dir\\" ++ ("\"" ++ ", shape=invhouse];\n    n1 [label=\"" ++ second)
    ∃ index text, backslashGraph.index = .ok index ∧ backslashGraph.draw = .ok text ∧
      (let opening := Drawing.upToLabel index backslashGraph.live []
        ⟨⟨0⟩, .control, .input "dir\\", []⟩
      text = opening ++ first ∧
        Drawing.afterString (text.toList.drop opening.length) = some second.toList) ∧
      let opening := Drawing.upToLabel index backslashGraph.live (backslashGraph.nodes.take 1)
        ⟨⟨1⟩, .control, .other "a\\\"b", []⟩
      text = opening ++ second ∧
        Drawing.afterString (text.toList.drop opening.length) = some ("b\"" ++ tail).toList := by
  have read {text opening inside : String} {rest : List Char} (written : text = opening ++ inside)
      (ends : Drawing.afterString inside.toList = some rest) :
      text = opening ++ inside ∧
        Drawing.afterString (text.toList.drop opening.length) = some rest :=
    ⟨written, by rw [written, Drawing.drop_opening, ends]⟩
  intro tail second first
  refine ⟨⟨backslashGraph.nodes, [(⟨2⟩, 2), (⟨1⟩, 1), (⟨0⟩, 0)], [(⟨1⟩, 1), (⟨0⟩, 1)]⟩, _, by
    decide +kernel, rfl, read (by decide +kernel) ?_, read (by decide +kernel) ?_⟩
  · simp [first, Drawing.afterString]
  · simp [second, Drawing.afterString]

end NodeGraph
