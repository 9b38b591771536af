import NodeGraph.Proofs.Liveness

/-!
# Appending nodes

The outputs of a graph are lowered in stored order, through one context that only grows. So nodes
that are stored after the others come last in everything: the outputs among them are lowered when
all that was there before is done, and find it in the context. `compile_appended` says that what the
graph compiled to before is a prefix of what it compiles to with them.

That lowering the earlier outputs does not see the new nodes is a fact about answered requests:
where a graph finds all the nodes that another one finds (`Graph.Finds`), a request that the other
one answers has the same answer and leaves the same context (`Graph.Finds.lowerWithin`). A request
that is refused may well be answered in the larger graph.
-/

namespace NodeGraph

/-! ### Requests in a larger graph -/

section

variable {lower lower' : NodeId → Context → Context × Except Fault Symbol}

/-- Requests are all answered when the first one is, and then the others are. -/
theorem lowerEach_cons_eq_ok {id : NodeId} {rest : List NodeId} {c c' : Context}
    {args : List Symbol} :
    lowerEach lower (id :: rest) c = (c', .ok args) ↔
      ∃ c₁ s ss, lower id c = (c₁, .ok s) ∧ lowerEach lower rest c₁ = (c', .ok ss) ∧
        args = s :: ss := by
  rw [lowerEach]
  obtain ⟨c₁, fault | s⟩ := lower id c
  · simp
  · rcases others : lowerEach lower rest c₁ with ⟨c₂, fault | ss⟩
    · simp [others]
    · simp [others, eq_comm]

/-- Requests are all answered when some of them are, and then those that follow. -/
theorem lowerEach_append_eq_ok {ids more : List NodeId} {c c' : Context} {args : List Symbol} :
    lowerEach lower (ids ++ more) c = (c', .ok args) ↔
      ∃ c₁ ss ts, lowerEach lower ids c = (c₁, .ok ss) ∧ lowerEach lower more c₁ = (c', .ok ts) ∧
        args = ss ++ ts := by
  induction ids generalizing c args with
  | nil => simp [lowerEach]
  | cons id rest ih =>
    simp only [List.cons_append, lowerEach_cons_eq_ok, ih]
    constructor
    · rintro ⟨c₁, s, _, first, ⟨c₂, ss, ts, others, after, rfl⟩, rfl⟩
      exact ⟨c₂, s :: ss, ts, ⟨c₁, s, ss, first, others, rfl⟩, after, rfl⟩
    · rintro ⟨c₂, _, ts, ⟨c₁, s, ss, first, others, rfl⟩, after, rfl⟩
      exact ⟨c₁, s, ss ++ ts, first, ⟨c₂, ss, ts, others, after, rfl⟩, rfl⟩

/-- Requests one after the other that are all answered are answered alike, when each of them is. -/
theorem lowerEach_of_answered
    (each : ∀ id c c' s, lower id c = (c', .ok s) → lower' id c = (c', .ok s))
    (ids : List NodeId) {c c' : Context} {args : List Symbol}
    (h : lowerEach lower ids c = (c', .ok args)) : lowerEach lower' ids c = (c', .ok args) := by
  induction ids generalizing c args with
  | nil => exact h
  | cons id rest ih =>
    obtain ⟨c₁, s, ss, first, others, rfl⟩ := lowerEach_cons_eq_ok.mp h
    exact lowerEach_cons_eq_ok.mpr ⟨c₁, s, ss, each _ _ _ _ first, ih others, rfl⟩

end

namespace Graph

variable {g h : Graph}

/-- Every node that a graph finds is found by another one. -/
def Finds (g h : Graph) : Prop := ∀ id node, g.node? id = some node → h.node? id = some node

theorem finds_of_append {more : List Node} (appended : h.nodes = g.nodes ++ more) : g.Finds h := by
  intro id node stored
  rw [node?, appended, List.find?_append, Option.or_eq_some_iff]
  exact .inl stored

/-- **An answer does not see further nodes**: a request that is answered is answered alike by a
graph that finds all nodes the first one finds. -/
theorem Finds.lowerWithin (finds : g.Finds h) (room : Nat) :
    ∀ id c c' s, g.lowerWithin room id c = (c', .ok s) →
      h.lowerWithin room id c = (c', .ok s) := by
  induction room with
  | zero => exact fun _ _ _ _ answered => answered
  | succ room ih =>
    intro id c c' s answered
    unfold Graph.lowerWithin at answered ⊢
    cases known : c.known? id with
    | some answer => rw [known] at answered; exact answered
    | none =>
      rw [known] at answered
      simp only at answered ⊢
      cases stored : g.node? id with
      | none => rw [stored] at answered; cases answered
      | some node =>
        rw [stored] at answered
        rw [finds id node stored]
        simp only at answered ⊢
        cases inputs : lowerEach (g.lowerWithin room) node.inputs (c.enter id) with
        | mk c₁ answers =>
          rw [inputs] at answered
          cases answers with
          | error fault => cases answered
          | ok args =>
            rw [lowerEach_of_answered ih node.inputs inputs]
            exact answered

theorem Finds.lower (finds : g.Finds h) (id : NodeId) (c c' : Context) (s : Symbol)
    (answered : g.lower id c = (c', .ok s)) : h.lower id c = (c', .ok s) :=
  finds.lowerWithin _ id c c' s answered

/-! ### Outputs -/

/-- When the outputs of a graph are lowered, and those of a graph with further nodes are too, the
second run goes on where the first one ended: its symbols start with those of the first, and its
context holds all that the other one holds. -/
theorem lowerOutputs_append {more : List Node} (appended : h.nodes = g.nodes ++ more)
    {outputs outputs' : List Symbol} (lowered : g.lowerOutputs.2 = .ok outputs)
    (lowered' : h.lowerOutputs.2 = .ok outputs') :
    outputs <+: outputs' ∧ g.lowerOutputs.1.Extends h.lowerOutputs.1 := by
  have first : lowerEach g.lower (g.outputs.map (·.id)) .empty = (g.lowerOutputs.1, .ok outputs) :=
    Prod.ext rfl lowered
  have all : lowerEach h.lower (h.outputs.map (·.id)) .empty = (h.lowerOutputs.1, .ok outputs') :=
    Prod.ext rfl lowered'
  have ids : h.outputs.map (·.id) =
      g.outputs.map (·.id) ++ (more.filter (·.kind.isOutput)).map (·.id) := by
    rw [Graph.outputs, appended, List.filter_append, List.map_append]
    rfl
  rw [ids] at all
  obtain ⟨c, ss, ts, same, after, rfl⟩ := lowerEach_append_eq_ok.mp all
  cases same.symm.trans (lowerEach_of_answered (finds_of_append appended).lower _ first)
  have tracked : g.lowerOutputs.1.Tracked :=
    Context.tracked_empty.steps g.lowerOutputs_request.steps
  have rest := lowerEach_request (g := h) (maxDepth - g.lowerOutputs.1.path.length)
    (fun id _ tracked _ => lower_request tracked id)
    ((more.filter (·.kind.isOutput)).map (·.id)) g.lowerOutputs.1 tracked
    (Nat.sub_add_cancel tracked.short)
  rw [after] at rest
  exact ⟨List.prefix_append _ _, rest.steps.extends tracked⟩

end Graph

/-! ### Compiled graphs -/

/-- The source ends with the return line. -/
theorem Compiled.getLast?_lines (p : Compiled) (options : Options) :
    (p.lines options).getLast? = some ("  return " ++ p.returnValue options) := by
  rw [lines, List.getLast?_append]
  rfl

/-- What is returned in the mode `first` is told by the first output. -/
theorem Compiled.returnValue_of_first (p : Compiled) {options : Options}
    (first : options.mode = .first) :
    p.returnValue options =
      (p.outputs.head?.map fun s => options.signature.returnType ++ "(" ++ s.text ++ ")").getD
        "0" := by
  have single : p.returnsTuple options.mode = false := by
    rw [returnsTuple, first]
    rfl
  rw [returnValue, single]
  simp

/-- **Appending nodes disturbs nothing that was there.** Let a graph compile, and also the graph
with further nodes stored after its own. Then the statements, the outputs and the placeholders of
the first are prefixes of those of the second, and its primitives are among those of the second. If
the graph has an output and the first one is returned, the return line is the same. -/
theorem compile_appended {g h : Graph} {more : List Node} (appended : h.nodes = g.nodes ++ more)
    {p q : Compiled} (compiled : g.compile = .ok p) (compiled' : h.compile = .ok q)
    (options : Options) :
    p.body <+: q.body ∧ p.outputs <+: q.outputs ∧ p.placeholders <+: q.placeholders ∧
      p.used ⊆ q.used ∧
      (g.outputs ≠ [] → options.mode = .first →
        (q.lines options).getLast? = (p.lines options).getLast?) := by
  obtain ⟨-, lowered, body, -, placeholders⟩ := Graph.compile_eq_ok compiled
  obtain ⟨-, lowered', body', -, placeholders'⟩ := Graph.compile_eq_ok compiled'
  obtain ⟨outputs, grows⟩ := Graph.lowerOutputs_append appended lowered lowered'
  have bodies : p.body <+: q.body := body ▸ body' ▸ grows.statements
  refine ⟨bodies, outputs, placeholders ▸ placeholders' ▸ grows.placeholders, fun r hr => ?_,
    fun nonempty first => ?_⟩
  · obtain ⟨s, hs, calls⟩ := (Graph.mem_used_iff compiled).mp hr
    exact (Graph.mem_used_iff compiled').mpr ⟨s, bodies.subset hs, calls⟩
  · have count : p.outputs.length = g.outputs.length := by
      rw [← (g.lowerOutputs_request.binds p.outputs lowered).length_eq, List.length_map]
    have some : p.outputs ≠ [] := by
      rw [← List.length_pos_iff, count, List.length_pos_iff]
      exact nonempty
    obtain ⟨others, outputs⟩ := outputs
    rw [Compiled.getLast?_lines, Compiled.getLast?_lines, Compiled.returnValue_of_first _ first,
      Compiled.returnValue_of_first _ first, ← outputs, List.head?_append_of_ne_nil _ some]

/-- `sharedGraph` with a sum of `n6`, which nothing took, and the unhandled `n3`, an unknown node,
and outputs of both. -/
def extendedGraph : Graph :=
  let node (id : UInt32) (kind : Kind) (inputs : List UInt32) : Node :=
    ⟨⟨id⟩, .control, kind, inputs.map NodeId.mk⟩
  ⟨sharedGraph.nodes ++ [node 10 .valueOutput [11], node 11 (.math "add" []) [6, 3],
    node 12 (.other "blur") [10], node 13 .bufferOutput [12]], ⟨14⟩⟩

/-- What `sharedGraph` compiles to is the start of what `extendedGraph` compiles to. -/
theorem compile_appended_extendedGraph :
    let options := Options.plain (.plain "f" [])
    ∃ p q, sharedGraph.compile = .ok p ∧ extendedGraph.compile = .ok q ∧
      p.body.length = 4 ∧ q.body.length = 7 ∧ p.body <+: q.body ∧
      p.placeholders.length = 1 ∧ q.placeholders.length = 2 ∧ p.placeholders <+: q.placeholders ∧
      (q.lines options).getLast? = (p.lines options).getLast? := by
  intro options
  obtain ⟨p, hp⟩ : ∃ p, sharedGraph.compile = .ok p := ⟨_, rfl⟩
  obtain ⟨q, hq⟩ : ∃ q, extendedGraph.compile = .ok q := ⟨_, rfl⟩
  have before : sharedGraph.compile.toOption.map
      (fun p => (p.body.length, p.placeholders.length)) = some (4, 1) := by decide +kernel
  have after : extendedGraph.compile.toOption.map
      (fun p => (p.body.length, p.placeholders.length)) = some (7, 2) := by decide +kernel
  simp only [hp, hq, Except.toOption, Option.map_some, Option.some.injEq, Prod.mk.injEq]
    at before after
  obtain ⟨body, -, placeholders, -, line⟩ := compile_appended rfl hp hq options
  exact ⟨p, q, hp, hq, before.1, after.1, body, before.2, after.2, placeholders,
    line (by decide +kernel) rfl⟩

end NodeGraph
