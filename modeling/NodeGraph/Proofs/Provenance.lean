import NodeGraph.Procedure
import NodeGraph.Proofs.Loading
import NodeGraph.Proofs.NumberTexts
import NodeGraph.Proofs.Steps
import NodeGraph.Provenance

/-!
# What the provenance of a graph tells

The provenance of a graph is made from its canonical document. Of two graphs with one document the
nodes are the same, but for the numbers that are not finite: all of them are written in one way
(`Graph.canonical_eq_iff`). So graphs with one document and finite numbers compile to the same
procedure (`compile_of_canonical_eq`), and without the finite numbers they need not
(`provenance_returnConstant`).

A document is taken apart from the front. Each text in it tells what it is the text of and where it
ends (`Delimits`); a list and the members of an object do so when their parts do.
-/

namespace NodeGraph

/-! ### What a document tells -/

/-- What the members of a kind tell of it. -/
def Kind.written : Kind → Kind
  | .constant value => .constant value.written
  | .math op params => .math op (params.map Binary64.written)
  | .wave form phase => .wave form phase.written
  | .polar op centerX centerY => .polar op centerX.written centerY.written
  | kind => kind

/-- What the text of a node tells of it. -/
def Node.written (node : Node) : Node := { node with kind := node.kind.written }

/-! ### Finite numbers -/

theorem Binary64.written_of_finite {v : Binary64} (h : v.isFinite = true) : v.written = v :=
  if_pos h

@[simp] theorem Binary64.isFinite_written (v : Binary64) : v.written.isFinite = v.isFinite := by
  unfold written
  split
  · rfl
  · rename_i notFinite
    rw [Bool.eq_false_of_not_eq_true notFinite]
    rfl

theorem Kind.isFinite_written (k : Kind) :
    (∀ v ∈ k.written.numbers, v.isFinite = true) ↔ ∀ v ∈ k.numbers, v.isFinite = true := by
  cases k <;> simp [written, numbers]

theorem Kind.written_of_finite {k : Kind} (h : ∀ v ∈ k.numbers, v.isFinite = true) :
    k.written = k := by
  have same (v : Binary64) (hv : v ∈ k.numbers) : v.written = v :=
    Binary64.written_of_finite (h v hv)
  cases k with
  | constant v => rw [written, same v (by simp [numbers])]
  | math op params =>
    have params' : params.map Binary64.written = params :=
      (List.map_congr_left same).trans (List.map_id' params)
    rw [written, params']
  | wave form phase => rw [written, same phase (by simp [numbers])]
  | polar op x y => rw [written, same x (by simp [numbers]), same y (by simp [numbers])]
  | input _ | valueOutput | bufferOutput | audioOutput | other _ => rfl

theorem Node.map_written_of_finite {ns : List Node}
    (h : ∀ node ∈ ns, ∀ v ∈ node.kind.numbers, v.isFinite = true) : ns.map written = ns := by
  have same (node : Node) (hn : node ∈ ns) : node.written = node := by
    rw [written, Kind.written_of_finite (h node hn)]
  rw [List.map_congr_left same, List.map_id']

/-! ### Texts -/

namespace Document

/-- The texts tell something of what they are the texts of, and where they end. -/
structure Delimits {α β : Type} (text : α → List Char) (told : α → β) : Prop where
  opens : ∀ a, Opens (text a)
  unique : ∀ {a b : α} {rest rest' : List Char}, Ended rest → Ended rest' →
    text a ++ rest = text b ++ rest' → told a = told b ∧ rest = rest'

theorem Delimits.of_reads {α β : Type} {reader : Reader β} {text : α → List Char} {told : α → β}
    (h : ∀ a, Reads reader (text a) (told a)) : Delimits text told :=
  ⟨fun a => (h a).opens, fun {a b _ _} ended ended' e => (h a).unique (h b) ended ended' e⟩

theorem delimits_numberText : Delimits numberText Binary64.written :=
  ⟨opens_numberText, numberText_unique⟩

theorem delimits_stringText : Delimits stringText Value.string := .of_reads (reads_string 0)

/-- The elements after the first one. -/
theorem Delimits.itemsTail {α β : Type} {text : α → List Char} {told : α → β}
    (h : Delimits text told) {as bs : List α} {rest rest' : List Char}
    (e : itemsTail (as.map text) ++ rest = itemsTail (bs.map text) ++ rest') :
    as.map told = bs.map told ∧ rest = rest' := by
  induction as generalizing bs with
  | nil =>
    cases bs with
    | nil => exact ⟨rfl, List.append_cancel_left e⟩
    | cons b bs => exact nomatch (List.cons.inj e).1
  | cons a as ih =>
    cases bs with
    | nil => exact nomatch (List.cons.inj e).1
    | cons b bs =>
      simp only [List.map_cons, Document.itemsTail, List.cons_append, List.append_assoc,
        List.cons.injEq, true_and] at e
      obtain ⟨first, e⟩ := h.unique (ended_itemsTail _ _) (ended_itemsTail _ _) e
      obtain ⟨others, rest⟩ := ih e
      exact ⟨by rw [List.map_cons, List.map_cons, first, others], rest⟩

/-- A list tells what its elements do. -/
theorem Delimits.list {α β : Type} {text : α → List Char} {told : α → β} (h : Delimits text told) :
    Delimits (fun as : List α => listText (as.map text)) (List.map told) := by
  refine ⟨fun as => ⟨'[', _, rfl, rfl, by decide⟩, fun {as bs rest rest'} _ _ e => ?_⟩
  have notEmpty (a : α) (items rest rest' : List Char) :
      text a ++ items ++ rest ≠ ']' :: rest' := by
    obtain ⟨c, cs, hc, -, notEnd⟩ := h.opens a
    rw [hc]
    exact fun e => notEnd (List.cons.inj e).1
  cases as with
  | nil =>
    cases bs with
    | nil => exact ⟨rfl, List.append_cancel_left e⟩
    | cons b bs =>
      rw [List.map_cons, listText_cons] at e
      exact absurd (List.cons.inj e).2.symm (notEmpty _ _ _ _)
  | cons a as =>
    cases bs with
    | nil =>
      rw [List.map_cons, listText_cons] at e
      exact absurd (List.cons.inj e).2 (notEmpty _ _ _ _)
    | cons b bs =>
      -- The first element stands as the others do, but after the bracket in place of a comma.
      rw [List.map_cons, List.map_cons, listText_cons, listText_cons] at e
      have e' : Document.itemsTail ((a :: as).map text) ++ rest =
          Document.itemsTail ((b :: bs).map text) ++ rest' :=
        congrArg (',' :: ·) (List.cons.inj e).2
      exact h.itemsTail e'

/-! ### Members -/

/-- The first of some members, and the others. -/
theorem Delimits.member {α β : Type} {text : α → List Char} {told : α → β} (h : Delimits text told)
    {key : String} {a b : α} {members members' : List (String × List Char)} {rest rest' : List Char}
    (e : membersTail ((key, text a) :: members) ++ rest =
      membersTail ((key, text b) :: members') ++ rest') :
    told a = told b ∧ membersTail members ++ rest = membersTail members' ++ rest' := by
  simp only [membersTail, memberText, List.cons_append, List.append_assoc, List.cons.injEq,
    true_and, List.append_cancel_left_eq] at e
  exact h.unique (ended_membersTail _ _) (ended_membersTail _ _) e

/-- The members of an object stand after its bracket as they do after a comma. -/
theorem membersTail_of_objectText {member member' : String × List Char}
    {members members' : List (String × List Char)} {rest rest' : List Char}
    (e : objectText (member :: members) ++ rest = objectText (member' :: members') ++ rest') :
    membersTail (member :: members) ++ rest = membersTail (member' :: members') ++ rest' := by
  rw [objectText_cons, objectText_cons] at e
  exact congrArg (',' :: ·) (List.cons.inj e).2

/-- The name of a kind. -/
def kindName : Kind → KindName
  | .input _ => .input
  | .constant _ => .constant
  | .math _ _ => .math
  | .wave _ _ => .wave
  | .polar _ _ _ => .polar
  | .valueOutput => .valueOutput
  | .bufferOutput => .bufferOutput
  | .audioOutput => .audioOutput
  | .other _ => .other

theorem kindMembers_eq (k : Kind) :
    kindMembers k = ("kind", stringText (kindName k).name) :: (kindMembers k).tail := by
  cases k <;> rfl

theorem KindName.ofValue_name (name : KindName) : ofValue (.string name.name) = .ok name := by
  cases name <;> rfl

theorem KindName.eq_of_name {a b : KindName} (h : a.name = b.name) : a = b := by
  have same := ofValue_name a
  rw [h, ofValue_name] at same
  exact (Except.ok.inj same).symm

/-- The payload of a kind, after its name. -/
theorem payload_unique {k k' : Kind} (name : kindName k = kindName k')
    {members members' : List (String × List Char)} {rest rest' : List Char}
    (e : membersTail ((kindMembers k).tail ++ members) ++ rest =
      membersTail ((kindMembers k').tail ++ members') ++ rest') :
    k.written = k'.written ∧ membersTail members ++ rest = membersTail members' ++ rest' := by
  match k, k', name with
  | .input s, .input s', _ =>
    obtain ⟨text, e⟩ := delimits_stringText.member e
    exact ⟨congrArg Kind.input (Value.string.inj text), e⟩
  | .constant v, .constant v', _ =>
    obtain ⟨value, e⟩ := delimits_numberText.member e
    exact ⟨congrArg Kind.constant value, e⟩
  | .math op params, .math op' params', _ =>
    obtain ⟨text, e⟩ := delimits_stringText.member e
    obtain ⟨values, e⟩ := delimits_numberText.list.member e
    exact ⟨congrArg₂ Kind.math (Value.string.inj text) values, e⟩
  | .wave form phase, .wave form' phase', _ =>
    obtain ⟨text, e⟩ := delimits_stringText.member e
    obtain ⟨value, e⟩ := delimits_numberText.member e
    exact ⟨congrArg₂ Kind.wave (Value.string.inj text) value, e⟩
  | .polar op x y, .polar op' x' y', _ =>
    obtain ⟨text, e⟩ := delimits_stringText.member e
    obtain ⟨first, e⟩ := delimits_numberText.member e
    obtain ⟨second, e⟩ := delimits_numberText.member e
    refine ⟨?_, e⟩
    rw [Kind.written, Kind.written, Value.string.inj text, first, second]
  | .valueOutput, .valueOutput, _ => exact ⟨rfl, e⟩
  | .bufferOutput, .bufferOutput, _ => exact ⟨rfl, e⟩
  | .audioOutput, .audioOutput, _ => exact ⟨rfl, e⟩
  | .other s, .other s', _ =>
    obtain ⟨text, e⟩ := delimits_stringText.member e
    exact ⟨congrArg Kind.other (Value.string.inj text), e⟩

/-! ### Nodes and documents -/

theorem delimits_nodeText : Delimits nodeText Node.written := by
  refine ⟨fun n => ⟨'\x7b', _, rfl, rfl, by decide⟩, fun {n m rest rest'} _ _ e => ?_⟩
  have e := membersTail_of_objectText e
  obtain ⟨id, e⟩ := (Delimits.of_reads reads_nodeId).member e
  obtain ⟨domain, e⟩ := (Delimits.of_reads reads_domain).member e
  rw [kindMembers_eq n.kind, kindMembers_eq m.kind] at e
  obtain ⟨name, e⟩ := delimits_stringText.member e
  obtain ⟨kind, e⟩ := payload_unique (KindName.eq_of_name (Value.string.inj name)) e
  obtain ⟨inputs, e⟩ := (Delimits.of_reads reads_nodeId).list.member e
  rw [List.map_id', List.map_id'] at inputs
  refine ⟨?_, List.append_cancel_left e⟩
  rw [Node.written, Node.written, id, domain, kind, inputs]

theorem written_of_canonicalText {ns ms : List Node} (e : canonicalText ns = canonicalText ms) :
    ns.map Node.written = ms.map Node.written := by
  have e : canonicalText ns ++ [] = canonicalText ms ++ [] := by rw [e]
  exact (delimits_nodeText.list.member (membersTail_of_objectText e)).1

@[simp] theorem numberText_written (v : Binary64) : numberText v.written = numberText v := by
  unfold Binary64.written
  split
  · rfl
  · rename_i notFinite
    have nan : Binary64.nan.isFinite = false := rfl
    rw [numberText_of_not_finite (Bool.eq_false_of_not_eq_true notFinite),
      numberText_of_not_finite nan]

@[simp] theorem nodeText_written (n : Node) : nodeText n.written = nodeText n := by
  have kind : kindMembers n.kind.written = kindMembers n.kind := by
    cases n.kind <;> simp [Kind.written, kindMembers, Function.comp_def]
  rw [nodeText, nodeText, ← kind]
  rfl

end Document

namespace Graph

variable {g h : Graph}

/-- **The canonical document tells a graph up to the numbers that are not finite.** -/
theorem canonical_eq_iff :
    g.canonical = h.canonical ↔ g.nodes.map Node.written = h.nodes.map Node.written := by
  constructor
  · intro same
    exact Document.written_of_canonicalText (String.ofList_injective same)
  · intro same
    have text (ns : List Node) :
        (ns.map Node.written).map Document.nodeText = ns.map Document.nodeText := by
      simp
    rw [canonical, canonical, Document.canonicalText, Document.canonicalText, ← text, same, text]

/-- If the numbers of one graph are finite, those of the other are as well. -/
theorem nodes_eq_of_canonical_eq (same : g.canonical = h.canonical)
    (finite : ∀ node ∈ g.nodes, ∀ v ∈ node.kind.numbers, v.isFinite = true) :
    g.nodes = h.nodes := by
  have told := canonical_eq_iff.mp same
  rw [Node.map_written_of_finite finite] at told
  have finite' : ∀ node ∈ h.nodes, ∀ v ∈ node.kind.numbers, v.isFinite = true := by
    intro node hn
    have mem : node.written ∈ g.nodes := told ▸ List.mem_map_of_mem hn
    exact node.kind.isFinite_written.mp (finite _ mem)
  rw [told, Node.map_written_of_finite finite']

theorem provenance_congr (same : g.canonical = h.canonical) : g.provenance = h.provenance := by
  delta provenance digest
  rw [same]

/-- Only the nodes of a graph are compiled. -/
theorem compile_congr (same : g.nodes = h.nodes) : g.compile = h.compile := by
  have lowered : g.lower = h.lower := lower_congr fun id => by rw [node?, node?, same]
  have checked : g.check = h.check := by
    simp only [check, index, same]
  simp only [compile, checked, lowerOutputs, outputs, lowered, same]

end Graph

/-! ### Procedures -/

/-- **Provenance tells the procedure when the numbers are finite**: graphs with one canonical
document then compile to the same procedure, or fail with the same fault. -/
theorem compile_of_canonical_eq {g h : Graph} (same : g.canonical = h.canonical)
    (finite : ∀ node ∈ g.nodes, ∀ v ∈ node.kind.numbers, v.isFinite = true) :
    g.compile = h.compile :=
  Graph.compile_congr (Graph.nodes_eq_of_canonical_eq same finite)

/-- A graph that returns a number, with a mark. -/
def constantGraph (v : Binary64) (mark : NodeId) : Graph :=
  ⟨[⟨.first, .control, .constant v, []⟩, ⟨⟨1⟩, .control, .valueOutput, [.first]⟩], mark⟩

theorem compile_of_canonical_eq_constantGraph :
    (constantGraph ⟨0x3FB999999999999A⟩ ⟨2⟩).compile =
      (constantGraph ⟨0x3FB999999999999A⟩ ⟨9⟩).compile :=
  compile_of_canonical_eq (by rw [Graph.canonical, Graph.canonical]; rfl) (by decide +kernel)

/-- The graph that returns a number, made from the graph without nodes. -/
def returnConstant? (v : Binary64) : Option Graph := do
  let (id, g) ← Graph.empty.add? .control (.constant v) []
  let (_, g) ← g.add? .control .valueOutput [id]
  return g

/-- What is not a number and what is infinite have one provenance and two sources. -/
theorem provenance_returnConstant : ∃ g h,
    returnConstant? .nan = some g ∧ returnConstant? (.infinity false) = some h ∧
      g.canonical = h.canonical ∧ g.provenance = h.provenance ∧
      g.compile.map (·.source (.plain .kinematics)) ≠
        h.compile.map (·.source (.plain .kinematics)) := by
  have same : (constantGraph .nan ⟨2⟩).canonical =
      (constantGraph (.infinity false) ⟨2⟩).canonical := Graph.canonical_eq_iff.mpr rfl
  exact ⟨_, _, rfl, rfl, same, Graph.provenance_congr same, by decide +kernel⟩

end NodeGraph
