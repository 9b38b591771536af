import NodeGraph.Proofs.Liveness
import NodeGraph.Proofs.Meaning

/-!
# Stand-in values

A node that no rule handles is given a stand-in value, and what was not handled is noted twice: in
the comment of its statement, and in the list of placeholders. Whether a node is handled can be read
off its kind, its operator and the numbers of its inputs and parameters (`Node.Unhandled`), without
lowering it. `compile_placeholders` says that the list is exact: it goes along with the statements
that have a comment, and it names the live nodes that no rule handles, each once.
-/

namespace NodeGraph

/-! ### Nodes that no rule handles -/

/-- No rule handles the node. -/
def Node.Unhandled (node : Node) : Prop :=
  match node.kind with
  | .other _ => True
  | .wave form _ => node.inputs = [] ∨ form ∉ ["sin", "cos", "saw", "square"]
  | .polar op _ _ => op ∉ ["distance", "angle"]
  | .math op params =>
    ¬((op = "add" ∨ op = "mul") ∧ 2 ≤ node.inputs.length ∨
      op = "map" ∧ 1 ≤ node.inputs.length ∧ params.length = 4 ∨
      op = "clamp" ∧ 1 ≤ node.inputs.length ∨
      op = "abs" ∧ 1 ≤ node.inputs.length)
  | .input _ | .constant _ | .valueOutput | .bufferOutput | .audioOutput => False

/-- What stands in for a node: the operand of its first input for a mathematical node that has
inputs, and zero for every other node. -/
def Node.standIn {α : Type} (node : Node) (args : List α) : Expr α :=
  match node.kind, args with
  | .math _ _, operand :: _ => .copy operand
  | _, _ => .zero

/-- A text finds no operator exactly when none is called by it. -/
theorem find?_name_eq_none_iff {α : Type} {all : List α} {name : α → String} {text : String} :
    all.find? (fun a => name a == text) = none ↔ text ∉ all.map name := by
  simp [List.find?_eq_none]

section

variable {α : Type} {args : List α} {expr : Expr α} {unhandled : Option String}

theorem unhandled_loweredMath {domain : Domain} {op : String} {params : List Binary64}
    (h : (loweredMath domain op params args).statement? = some (expr, unhandled)) :
    unhandled.isSome = true ↔
      ¬((op = "add" ∨ op = "mul") ∧ 2 ≤ args.length ∨
        op = "map" ∧ 1 ≤ args.length ∧ params.length = 4 ∨
        op = "clamp" ∧ 1 ≤ args.length ∨ op = "abs" ∧ 1 ≤ args.length) := by
  unfold loweredMath at h
  cases hop : MathOp.ofName? op with
  | none =>
    have unknown : op ∉ ["add", "mul", "map", "clamp", "abs"] := find?_name_eq_none_iff.mp hop
    rw [hop] at h
    cases h
    simp only [List.mem_cons, List.not_mem_nil, or_false, not_or] at unknown
    simp [unknown]
  | some known =>
    rw [hop] at h
    obtain rfl : op = known.name := eq_name_of_find? hop
    cases known with
    | add | mul =>
      rcases args with _ | ⟨a, _ | ⟨b, rest⟩⟩ <;> cases h <;> simp [MathOp.name]
    | map =>
      rcases args with _ | ⟨a, rest⟩ <;>
        rcases params with _ | ⟨p, _ | ⟨q, _ | ⟨r, _ | ⟨t, _ | ⟨u, more⟩⟩⟩⟩⟩ <;> cases h <;>
        simp [MathOp.name]
    | clamp | abs =>
      rcases args with _ | ⟨a, rest⟩ <;> cases h <;> simp [MathOp.name]

theorem unhandled_loweredWave {form : String} {phase : Binary64}
    (h : (loweredWave form phase args).statement? = some (expr, unhandled)) :
    unhandled.isSome = true ↔ args = [] ∨ form ∉ ["sin", "cos", "saw", "square"] := by
  unfold loweredWave at h
  rcases args with _ | ⟨a, rest⟩
  · cases h
    simp
  · cases hform : Waveform.ofName? form with
    | none =>
      simp only [hform] at h
      cases h
      exact iff_of_true rfl (.inr (find?_name_eq_none_iff.mp hform))
    | some known =>
      obtain rfl : form = known.name := eq_name_of_find? hform
      simp only [hform] at h
      cases h
      cases known <;> simp [Waveform.name]

theorem unhandled_loweredPolar {domain : Domain} {op : String} {centerX centerY : Binary64}
    (h : (loweredPolar domain op centerX centerY args).statement? = some (expr, unhandled)) :
    unhandled.isSome = true ↔ op ∉ ["distance", "angle"] := by
  unfold loweredPolar at h
  cases hop : PolarOp.ofName? op with
  | none =>
    simp only [hop] at h
    cases h
    exact iff_of_true rfl (find?_name_eq_none_iff.mp hop)
  | some known =>
    obtain rfl : op = known.name := eq_name_of_find? hop
    simp only [hop] at h
    cases h
    cases known <;> simp [PolarOp.name]

/-- The statement of a node has a note exactly when no rule handles the node. -/
theorem Node.unhandled_of_statement {node : Node} (same : args.length = node.inputs.length)
    (h : (node.lowered args).statement? = some (expr, unhandled)) :
    unhandled.isSome = true ↔ node.Unhandled := by
  unfold Node.lowered at h
  unfold Node.Unhandled
  have empty : node.inputs = [] ↔ args = [] := by
    rw [← List.length_eq_zero_iff, ← same, List.length_eq_zero_iff]
  rw [← same, empty]
  cases hk : node.kind with
  | math op params => rw [hk] at h; exact unhandled_loweredMath h
  | wave form phase => rw [hk] at h; exact unhandled_loweredWave h
  | polar op centerX centerY => rw [hk] at h; exact unhandled_loweredPolar h
  | constant value => rw [hk] at h; cases h; simp
  | other tag => rw [hk] at h; cases h; simp
  | input name => rw [hk] at h; cases h
  | valueOutput | bufferOutput | audioOutput =>
    rw [hk] at h
    cases args <;> cases h
    simp

/-- A statement with a note assigns what stands in for its node. -/
theorem Node.standIn_of_statement {node : Node} {detail : String}
    (h : (node.lowered args).statement? = some (expr, some detail)) :
    expr = node.standIn args := by
  unfold Node.lowered loweredMath loweredWave loweredPolar at h
  unfold Node.standIn
  cases hk : node.kind with
  | math op params =>
    simp only [hk] at h
    split at h
    · cases h
    · cases h; cases args <;> rfl
  | _ =>
    simp only [hk] at h
    repeat' split at h
    all_goals cases h
    all_goals rfl

end

theorem Node.emits_of_unhandled {node : Node} (h : node.Unhandled) : node.emits = true := by
  unfold Node.Unhandled at h
  unfold Node.emits
  cases hk : node.kind with
  | constant | math | wave | polar | other => rfl
  | input | valueOutput | bufferOutput | audioOutput => rw [hk] at h; cases h

/-! ### The list of placeholders -/

/-- What a list keeps goes along with the items that it comes from. -/
theorem forall₂_filterMap {α β : Type*} {f : α → Option β} {R : β → α → Prop} {l : List α}
    (h : ∀ a ∈ l, ∀ b, f a = some b → R b a) :
    List.Forall₂ R (l.filterMap f) (l.filter fun a => (f a).isSome) := by
  induction l with
  | nil => exact .nil
  | cons a l ih =>
    have rest := ih fun a' ha' => h a' (List.mem_cons_of_mem _ ha')
    cases found : f a with
    | none =>
      rw [List.filterMap_cons_none found, List.filter_cons_of_neg (by simp [found])]
      exact rest
    | some b =>
      rw [List.filterMap_cons_some found, List.filter_cons_of_pos (by simp [found])]
      exact .cons (h a List.mem_cons_self b found) rest

/-- What stands in for a node, as it is written when the inputs of nodes have these symbols. -/
def Context.standIn? (c : Context) (node : Node) : Option String :=
  match node.kind, node.inputs with
  | .math _ _, input :: _ => (c.symbol? input).map Symbol.text
  | _, _ => some "0"

theorem Context.standIn?_eq {c : Context} {node : Node} {args : List Symbol}
    (bound : Bound c.symbols node.inputs args) :
    c.standIn? node = some (node.standIn args).text := by
  unfold Context.standIn? Node.standIn
  cases hk : node.kind with
  | math op params =>
    cases hi : node.inputs with
    | nil =>
      rw [hi] at bound
      cases bound
      rfl
    | cons input inputs =>
      rw [hi] at bound
      cases bound with
      | cons first _ =>
        have symbol : c.symbol? input = _ := first
        simp only [symbol]
        rfl
  | _ => rfl

/-- Statement `k` of a body is told by a placeholder: it computes the node of the placeholder, by
what stands in for that node, and its comment is the note of the placeholder. -/
structure Placeholder.Tells (g : Graph) (q : Placeholder) (s : Statement) (k : Nat) : Prop where
  node : s.node = q.node
  text : ∃ node ∈ g.nodes, node.id = q.node ∧ ∃ value,
    g.lowerOutputs.1.standIn? node = some value ∧
      s.text = "let v" ++ toString k ++ " = " ++ value ++ "  # unhandled " ++ q.detail

theorem Graph.tells_of_getElem? {g : Graph} {p : Compiled} (compiled : g.compile = .ok p)
    {k : Nat} {s : Statement} (hs : p.body[k]? = some s) {detail : String}
    (note : s.unhandled = some detail) :
    Placeholder.Tells g ⟨s.node, detail⟩ s k := by
  obtain ⟨-, -, hbody, -, -⟩ := compile_eq_ok compiled
  have sound := g.sound_lowerOutputs
  obtain ⟨node, args, follows⟩ := sound.follows (hbody ▸ hs)
  have rule := follows.rule
  rw [note] at rule
  refine ⟨rfl, node, mem_of_node? follows.stored, id_of_node? follows.stored, _,
    Context.standIn?_eq follows.bound, ?_⟩
  rw [text_eq compiled hs, note, Node.standIn_of_statement rule, assignmentText, Option.elim_some,
    ← String.append_assoc]

/-- A statement without a note is an assignment and nothing else. -/
theorem Graph.text_of_handled {g : Graph} {p : Compiled} (compiled : g.compile = .ok p)
    {k : Nat} {s : Statement} (hs : p.body[k]? = some s) (handled : s.unhandled = none) :
    s.text = "let v" ++ toString k ++ " = " ++ s.expr.text := by
  rw [text_eq compiled hs, handled, assignmentText, Option.elim_none, String.append_empty]

/-- The node of a statement with a note is one that no rule handles. -/
theorem Graph.exists_note_iff {g : Graph} {p : Compiled} (compiled : g.compile = .ok p)
    {node : Node} (stored : node ∈ g.nodes) :
    (∃ s ∈ p.body, s.node = node.id ∧ s.unhandled.isSome = true) ↔
      g.Live node.id ∧ node.Unhandled := by
  constructor
  · rintro ⟨s, hs, same, note⟩
    obtain ⟨args, live, follows⟩ := follows_of_node compiled hs stored same
    exact ⟨live, (Node.unhandled_of_statement follows.bound.length_eq.symm follows.rule).mp note⟩
  · rintro ⟨live, unhandled⟩
    obtain ⟨s, hs, same⟩ := exists_mem_body compiled stored live (Node.emits_of_unhandled unhandled)
    obtain ⟨args, -, follows⟩ := follows_of_node compiled hs stored same
    exact ⟨s, hs, same,
      (Node.unhandled_of_statement follows.bound.length_eq.symm follows.rule).mpr unhandled⟩

/-- The placeholders go along with the statements that have a note. -/
theorem Graph.placeholders_along {g : Graph} {p : Compiled} (compiled : g.compile = .ok p) :
    List.Forall₂ (fun q s => Placeholder.Tells g q s.1 s.2) p.placeholders
      (p.body.zipIdx.filter (·.1.unhandled.isSome)) := by
  have kept : p.placeholders =
      p.body.zipIdx.filterMap fun s => s.1.unhandled.map (Placeholder.mk s.1.node) := by
    rw [(compile_lists compiled).2, NodeGraph.placeholders, ← List.zipIdx_map_fst 0 p.body,
      List.filterMap_map, List.zipIdx_map_fst]
    rfl
  have along := forall₂_filterMap (l := p.body.zipIdx)
    (f := fun s => s.1.unhandled.map (Placeholder.mk s.1.node))
    (R := fun q s => Placeholder.Tells g q s.1 s.2) fun s hs q hq => by
      obtain ⟨detail, note, rfl⟩ := Option.map_eq_some_iff.mp hq
      exact tells_of_getElem? compiled (List.mem_zipIdx_iff_getElem?.mp hs) note
  simpa only [Option.isSome_map, ← kept] using along

/-- No two statements compute one node. -/
theorem Graph.nodup_nodes_body {g : Graph} {p : Compiled} (compiled : g.compile = .ok p) :
    (p.body.map (·.node)).Nodup :=
  (nodes_body_perm compiled).nodup_iff.mpr (g.nodup_live.filter _)

/-- **The placeholders are exact.** Let a graph compile. Its placeholders go along, in order and one
to one, with the statements that have a comment: the one of statement `k` names the node of the
statement, and the statement assigns to `v{k}` what stands in for this node, and has the detail of
the placeholder as its comment. A statement that has no comment assigns to its variable, and that is
all. No node has two placeholders, and a node has one exactly when it is live and no rule handles
it. -/
theorem compile_placeholders {g : Graph} {p : Compiled} (compiled : g.compile = .ok p) :
    List.Forall₂ (fun q s => Placeholder.Tells g q s.1 s.2) p.placeholders
      (p.body.zipIdx.filter (·.1.unhandled.isSome)) ∧
    (∀ (k : Nat) (s : Statement), p.body[k]? = some s → s.unhandled = none →
      s.text = "let v" ++ toString k ++ " = " ++ s.expr.text) ∧
    (p.placeholders.map (·.node)).Nodup ∧
    ∀ node ∈ g.nodes,
      (∃ q ∈ p.placeholders, q.node = node.id) ↔ g.Live node.id ∧ node.Unhandled := by
  have along := Graph.placeholders_along compiled
  refine ⟨along, fun k s hs => Graph.text_of_handled compiled hs, ?_, fun node stored => ?_⟩
  · have nodes : p.placeholders.map (·.node) =
        (p.body.zipIdx.filter (·.1.unhandled.isSome)).map (·.1.node) := by
      rw [← List.forall₂_eq_eq_eq, List.forall₂_map_left_iff, List.forall₂_map_right_iff]
      exact along.imp fun _ _ tells => tells.node.symm
    have all : p.body.zipIdx.map (·.1.node) = p.body.map (·.node) := by
      rw [← List.zipIdx_map_fst 0 p.body, List.map_map, List.zipIdx_map_fst]
      rfl
    rw [nodes]
    exact (Graph.nodup_nodes_body compiled).sublist (all ▸ List.filter_sublist.map _)
  · rw [← Graph.exists_note_iff compiled stored]
    constructor
    · rintro ⟨q, hq, same⟩
      obtain ⟨s, hs, node, note⟩ := (Graph.mem_placeholders_iff compiled).mp hq
      exact ⟨s, hs, node.trans same, Option.isSome_of_eq_some note⟩
    · rintro ⟨s, hs, same, note⟩
      obtain ⟨detail, note⟩ := Option.isSome_iff_exists.mp note
      exact ⟨⟨s.node, detail⟩, (Graph.mem_placeholders_iff compiled).mpr ⟨s, hs, rfl, note⟩, same⟩

/-- In `sharedGraph` only `n3` is not handled: its statement is the last one, and the symbol of its
first input, `n5`, stands in for it. -/
theorem compile_placeholders_sharedGraph :
    ∃ p, sharedGraph.compile = .ok p ∧ p.placeholders = [⟨⟨3⟩, "math op: frob"⟩] ∧
      (∃ s, p.body[3]? = some s ∧ Placeholder.Tells sharedGraph ⟨⟨3⟩, "math op: frob"⟩ s 3) ∧
      sharedGraph.Live ⟨3⟩ ∧
      Node.Unhandled ⟨⟨3⟩, .control, .math "frob" [], [⟨5⟩, ⟨7⟩]⟩ := by
  obtain ⟨p, hp⟩ : ∃ p, sharedGraph.compile = .ok p := ⟨_, rfl⟩
  have found : sharedGraph.compile.toOption.map (fun p => (p.placeholders,
      (p.body.zipIdx.filter (·.1.unhandled.isSome)).map (·.2))) =
        some ([⟨⟨3⟩, "math op: frob"⟩], [3]) := by decide +kernel
  rw [hp, Except.toOption, Option.map_some, Option.some.injEq, Prod.mk.injEq] at found
  obtain ⟨placeholders, positions⟩ := found
  obtain ⟨along, -, -, named⟩ := compile_placeholders hp
  have unhandled := (named ⟨⟨3⟩, .control, .math "frob" [], [⟨5⟩, ⟨7⟩]⟩ (by decide +kernel)).mp
    ⟨_, placeholders ▸ List.mem_singleton_self _, rfl⟩
  refine ⟨p, hp, placeholders, ?_, unhandled⟩
  obtain ⟨⟨s, k⟩, commented, rfl⟩ := List.map_eq_singleton_iff.mp positions
  rw [placeholders, commented] at along
  have mem : (s, 3) ∈ p.body.zipIdx :=
    List.mem_of_mem_filter (commented ▸ List.mem_singleton_self _)
  exact ⟨s, List.mem_zipIdx_iff_getElem?.mp mem, (List.forall₂_cons.mp along).1⟩

end NodeGraph
