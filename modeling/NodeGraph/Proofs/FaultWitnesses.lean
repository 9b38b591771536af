import NodeGraph.Proofs.StoppedRequests

/-!
# What a fault shows

A fault of compiling is not only a verdict. `E0103` lists a loop, and the loop can be followed in
the graph: it starts at the node that the fault is about, each node after the first is an input of
the one before, and the last one takes the first. `E0104` lists nothing, but a chain of `1025` nodes
leads from an output to the node that it is about. `compile_fault_witnesses` says both.

They are read off the path. Lowering the outputs starts with an empty path, so when it stops, the
path is the trail of the request that stopped (`Graph.stopped_of_lowerOutputs`): a chain of
dependencies from an output that repeats nothing. The loop is the end of it (`Context.pathFrom_eq`).
-/

namespace NodeGraph

open Relation

/-! ### The loop on a path -/

/-- The path from a node on it starts with the node. -/
theorem Context.pathFrom_eq {c : Context} {id : NodeId} (h : id ∈ c.path) :
    ∃ outer inner, c.path.reverse = outer ++ id :: inner ∧ c.pathFrom id = id :: inner := by
  obtain ⟨outer, inner, split, first⟩ := List.eq_append_cons_of_mem (List.mem_reverse.mpr h)
  refine ⟨outer, inner, split, ?_⟩
  have position : c.path.reverse.idxOf? id = some outer.length := by
    rw [List.idxOf?_eq_some_iff]
    refine ⟨by simp [split], by simp [split], fun j hj same => first ?_⟩
    simp only [split, List.getElem_append_left hj] at same
    exact same ▸ List.getElem_mem hj
  rw [pathFrom, position, Option.getD_some, split, List.drop_left]

theorem Context.known?_of_fresh {c : Context} {id : NodeId} (unbound : c.symbol? id = none)
    (fresh : id ∉ c.onPath) : c.known? id = none := by
  simp [known?, unbound, fresh]

namespace Graph

/-- Some live nodes without repeats, each after the first an input of the one before; the first one
is the node `id`, and the last one takes it. -/
structure LoopFrom (g : Graph) (id : NodeId) (loop : List NodeId) : Prop where
  head : loop.head? = some id
  nodup : loop.Nodup
  live : ∀ n ∈ loop, g.Live n
  linked : loop.IsChain g.DependsOn
  closes : ∃ last, loop.getLast? = some last ∧ g.DependsOn last id

/-- How lowering the outputs was stopped: the path is a chain of dependencies that starts at an
output and goes on to where it stopped. -/
theorem stopped_of_lowerOutputs {g : Graph} {fault : Fault}
    (h : g.lowerOutputs.2 = .error fault) :
    ∃ output ∈ g.outputs, ∃ stop,
      g.lowerOutputs.1.path.reverse.Nodup ∧
      (g.lowerOutputs.1.path.reverse ++ [stop]).IsChain g.DependsOn ∧
      (g.lowerOutputs.1.path.reverse ++ [stop]).head? = some output.id ∧
      g.Cause g.lowerOutputs.1 stop fault := by
  have request := g.lowerOutputs_request
  have tracked := Context.tracked_empty.steps request.steps
  obtain ⟨trail, stop, stopped⟩ := request.stopped fault h
  obtain ⟨start, hstart, head⟩ := stopped.start
  obtain ⟨output, hout, rfl⟩ := List.mem_map.mp hstart
  have path : g.lowerOutputs.1.path.reverse = trail := by
    rw [stopped.path, List.reverse_append, List.reverse_reverse]
    rfl
  refine ⟨output, hout, stop, List.nodup_reverse.mpr tracked.nodup, ?_, ?_, stopped.cause⟩
  · rw [path]
    exact stopped.chain
  · rw [path]
    exact head

/-- What stands on a chain that starts at an output is live. -/
theorem live_of_isChain {g : Graph} {output : Node} (hout : output ∈ g.outputs)
    {chain : List NodeId} (linked : chain.IsChain g.DependsOn)
    (head : chain.head? = some output.id) {n : NodeId} (hn : n ∈ chain) : g.Live n := by
  obtain ⟨before, after, rfl⟩ := List.append_of_mem hn
  rw [List.append_cons] at linked head
  refine ⟨output, hout, reflTransGen_of_isChain linked.left_of_append ?_⟩
  cases before <;> exact head

/-- The loop of a cycle that stopped the lowering of the outputs can be followed in the graph. -/
theorem loopFrom_of_lowerOutputs {g : Graph} {id : NodeId} {loop : List NodeId}
    (h : g.lowerOutputs.2 = .error (.cycle id loop)) : g.LoopFrom id loop := by
  obtain ⟨output, hout, stop, nodup, linked, head, cause⟩ := stopped_of_lowerOutputs h
  cases cause with
  | cycle again =>
    obtain ⟨outer, inner, split, shown⟩ := Context.pathFrom_eq again
    rw [shown]
    rw [split] at nodup
    have live n (hn : n ∈ id :: inner) : g.Live n := by
      refine live_of_isChain hout linked head ?_
      rw [split]
      exact List.mem_append_left _ (List.mem_append_right _ hn)
    rw [split, List.append_assoc] at linked
    have closed : ((id :: inner) ++ [id]).IsChain g.DependsOn := linked.right_of_append
    refine ⟨rfl, nodup.of_append_right, live, closed.left_of_append, ?_⟩
    have some : (id :: inner) ≠ [] := List.cons_ne_nil id inner
    refine ⟨(id :: inner).getLast some, List.getLast?_eq_getLast_of_ne_nil some, ?_⟩
    exact (List.isChain_append.mp closed).2.2 _ (List.getLast?_eq_getLast_of_ne_nil some) id rfl

/-- A chain that is too long to be lowered leads from an output to where lowering stopped. -/
theorem chain_of_lowerOutputs {g : Graph} {id : NodeId}
    (h : g.lowerOutputs.2 = .error (.tooDeep id)) :
    ∃ output ∈ g.outputs, ∃ chain, g.ChainFrom output.id chain ∧ chain.length = maxDepth + 1 ∧
      chain.getLast? = some id := by
  obtain ⟨output, hout, stop, nodup, linked, head, cause⟩ := stopped_of_lowerOutputs h
  cases cause with
  | tooDeep _ fresh full =>
    have distinct : (g.lowerOutputs.1.path.reverse ++ [id]).Nodup := by
      rw [← List.concat_eq_append]
      exact nodup.concat (mt List.mem_reverse.mp fresh)
    refine ⟨output, hout, _, ⟨linked, distinct, head⟩, ?_, List.getLast?_concat⟩
    rw [List.length_append, List.length_reverse, full, List.length_singleton]

end Graph

/-! ### The cause chain -/

theorem Diagnostic.causes_foldl_withCause {α : Type} (message : α → String)
    (node : α → Option NodeId) (l : List α) (d : Diagnostic) :
    (l.foldl (fun d a => d.withCause (message a) (node a)) d).causes =
      d.causes ++ l.map fun a => ⟨message a, node a⟩ := by
  induction l generalizing d with
  | nil => simp
  | cons a l ih =>
    rw [List.foldl_cons, ih]
    simp [withCause]

/-- The causes of a cycle are the nodes of its loop. -/
theorem Fault.causes_cycle (id : NodeId) (loop : List NodeId) :
    (Fault.cycle id loop).diagnostic.causes.map (·.node) = loop.map some := by
  have causes := Diagnostic.causes_foldl_withCause (fun _ : NodeId => "on the dependency path") some
    loop (((Diagnostic.error .cycle
      ("cycle detected: " ++ id.text ++ " depends on itself")).about id).withHint
        "graphs must be acyclic; remove one edge of the loop")
  rw [show (Fault.cycle id loop).diagnostic.causes = _ from causes, List.map_append, List.map_map]
  rfl

/-- **The faults of compiling carry their witnesses.** Let a valid graph fail to compile. If the
fault is `E0103`, its cause chain lists live nodes without repeats that make a loop from the node
that the fault is about: each is an input of the one before, and the first is an input of the last.
If the fault is `E0104`, a dependency chain of `1025` different nodes starts at an output and ends
at the node that the fault is about. -/
theorem compile_fault_witnesses {g : Graph} (valid : g.Valid) {fault : Fault}
    (failed : g.compile = .error fault) :
    (fault.shown = some "E0103" → ∃ id loop, fault.diagnostic.node = some id ∧
      fault.diagnostic.causes.map (·.node) = loop.map some ∧ g.LoopFrom id loop) ∧
    (fault.shown = some "E0104" → ∃ n chain, fault.diagnostic.node = some n ∧
      (∃ output ∈ g.outputs, g.ChainFrom output.id chain) ∧ chain.length = 1025 ∧
      chain.getLast? = some n) := by
  have stopped : g.lowerOutputs.2 = .error fault :=
    (Graph.compile_eq_error_iff (g.check_eq_ok_iff.mpr valid)).mp failed
  refine ⟨fun shown => ?_, fun shown => ?_⟩
  · obtain ⟨id, loop, rfl⟩ := Fault.cycle_of_shown shown
    exact ⟨id, loop, Fault.node_diagnostic _, Fault.causes_cycle id loop,
      Graph.loopFrom_of_lowerOutputs stopped⟩
  · obtain ⟨n, rfl⟩ := Fault.tooDeep_of_shown shown
    obtain ⟨output, hout, chain, from', length, last⟩ := Graph.chain_of_lowerOutputs stopped
    exact ⟨n, chain, Fault.node_diagnostic _, ⟨output, hout, from'⟩, length, last⟩

/-! ### A long chain -/

/-- The id of a number. -/
def NodeId.ofNat (i : Nat) : NodeId := ⟨UInt32.ofNat i⟩

theorem NodeId.toNat_ofNat {i : Nat} (h : i < 4294967296) : (ofNat i).val.toNat = i :=
  UInt32.toNat_ofNat_of_lt' h

/-- A node of `deepGraph`, by its number. -/
def deepNode (n i : Nat) : Node where
  id := .ofNat i
  domain := .control
  kind := if i = 0 then .constant (.ofNat 1) else if i < n then .math "abs" [] else .valueOutput
  inputs := if i = 0 then [] else if i ≤ n then [.ofNat (i - 1)] else [.ofNat 0]

/-- A chain of nodes down from an output with the number `n`, each of which takes the one with the
number before, to a constant with the number `0`; and a second output, which takes the constant. -/
def deepGraph (n : Nat) : Graph := ⟨(List.range (n + 2)).map (deepNode n), .ofNat (n + 2)⟩

section

variable {n : Nat}

theorem ids_deepGraph (n : Nat) : (deepGraph n).ids = (List.range (n + 2)).map .ofNat := by
  rw [Graph.ids, deepGraph, List.map_map]
  rfl

theorem valid_deepGraph (small : n + 2 ≤ 4294967296) : (deepGraph n).Valid := by
  refine ⟨?_, fun node hn id hid => ?_⟩
  · rw [ids_deepGraph]
    refine List.Nodup.map_on (fun i hi j hj same => ?_) List.nodup_range
    rw [List.mem_range] at hi hj
    rw [← NodeId.toNat_ofNat (show i < 4294967296 by omega), same, NodeId.toNat_ofNat (by omega)]
  · obtain ⟨i, hi, rfl⟩ := List.mem_map.mp hn
    have hi := List.mem_range.mp hi
    obtain ⟨j, hj, rfl⟩ : ∃ j < n + 2, id = .ofNat j := by
      simp only [deepNode] at hid
      split at hid
      · cases hid
      · split at hid
        · exact ⟨i - 1, by omega, List.mem_singleton.mp hid⟩
        · exact ⟨0, by omega, List.mem_singleton.mp hid⟩
    rw [ids_deepGraph]
    exact List.mem_map_of_mem (List.mem_range.mpr hj)

theorem node?_deepGraph (small : n + 2 ≤ 4294967296) {i : Nat} (h : i < n + 2) :
    (deepGraph n).node? (.ofNat i) = some (deepNode n i) := by
  have stored : deepNode n i ∈ (deepGraph n).nodes := List.mem_map_of_mem (List.mem_range.mpr h)
  exact (valid_deepGraph small).node?_eq_some stored

theorem outputs_deepGraph (pos : 0 < n) :
    (deepGraph n).outputs = [deepNode n n, deepNode n (n + 1)] := by
  have isOutput (i : Nat) : (deepNode n i).kind.isOutput = decide (0 < i ∧ n ≤ i) := by
    by_cases zero : i = 0
    · simp [deepNode, zero, Kind.isOutput]
    · by_cases below : i < n
      · simp [deepNode, zero, below, Kind.isOutput]
      · simp [deepNode, zero, below, Kind.isOutput]
        omega
  have chain : (List.range n).filter (fun i => decide (0 < i ∧ n ≤ i)) = [] := by
    rw [List.filter_eq_nil_iff]
    intro i hi
    have := List.mem_range.mp hi
    simp
    omega
  rw [Graph.outputs, deepGraph, List.filter_map, List.range_succ, List.range_succ]
  simp only [Function.comp_def, isOutput, List.filter_append, chain]
  simp [pos]

theorem lowerEach_of_error {lower : NodeId → Context → Context × Except Fault Symbol} {id : NodeId}
    {rest : List NodeId} {c : Context} {fault : Fault} (h : (lower id c).2 = .error fault) :
    (lowerEach lower (id :: rest) c).2 = .error fault := by
  rw [lowerEach]
  generalize lower id c = r at h
  obtain ⟨c₁, fault' | s⟩ := r
  · cases h
    rfl
  · cases h

/-- A request for a node with one input that has to be looked into ends as the one for its input. -/
theorem Graph.lowerWithin_single {g : Graph} {room : Nat} {id input : NodeId} {node : Node}
    {c : Context} (known : c.known? id = none) (stored : g.node? id = some node)
    (inputs : node.inputs = [input]) :
    (∀ fault, (g.lowerWithin room input (c.enter id)).2 = .error fault →
      (g.lowerWithin (room + 1) id c).2 = .error fault) ∧
    ∀ s, (g.lowerWithin room input (c.enter id)).2 = .ok s →
      ∃ t, (g.lowerWithin (room + 1) id c).2 = .ok t := by
  rw [lowerWithin, known]
  simp only [stored, inputs, lowerEach]
  obtain ⟨c₁, fault | s⟩ := g.lowerWithin room input (c.enter id)
  · refine ⟨fun _ h => h, ?_⟩
    rintro _ ⟨⟩
  · refine ⟨?_, fun _ _ => ⟨_, rfl⟩⟩
    rintro _ ⟨⟩

/-- Nothing on the path is at or below a number. -/
def Context.Above (c : Context) (i : Nat) : Prop := ∀ id ∈ c.onPath, i < id.val.toNat

theorem Context.Above.enter {c : Context} {i : Nat} (h : c.Above (i + 1))
    (small : i + 1 < 4294967296) : (c.enter (.ofNat (i + 1))).Above i := by
  intro id hid
  rcases List.mem_cons.mp hid with rfl | hid
  · rw [NodeId.toNat_ofNat small]
    exact Nat.lt_succ_self i
  · exact Nat.lt_of_succ_lt (h id hid)

theorem Context.Above.known? {c : Context} {i : Nat} (h : c.Above i) (small : i < 4294967296)
    (unbound : c.symbol? (.ofNat i) = none) : c.known? (.ofNat i) = none := by
  refine known?_of_fresh unbound fun on => ?_
  have := h _ on
  rw [NodeId.toNat_ofNat small] at this
  exact Nat.lt_irrefl i this

/-- A request for a node of the chain ends with `E0104` when there is no room for all the nodes
below it and none of them has a symbol. -/
theorem tooDeep_deepGraph (small : n + 2 ≤ 4294967296) (room : Nat) {i : Nat} (h : i ≤ n)
    (short : room ≤ i) {c : Context} (new : c.symbols = []) (above : c.Above i) :
    ((deepGraph n).lowerWithin room (.ofNat i) c).2 = .error (.tooDeep (.ofNat (i - room))) := by
  induction room generalizing i c with
  | zero =>
    rw [Graph.lowerWithin, above.known? (by omega) (by rw [Context.symbol?, new]; rfl)]
    rfl
  | succ room ih =>
    obtain ⟨i, rfl⟩ : ∃ j, i = j + 1 := ⟨i - 1, by omega⟩
    have known := above.known? (by omega) (by rw [Context.symbol?, new]; rfl)
    have stored := node?_deepGraph small (show i + 1 < n + 2 by omega)
    have inputs : (deepNode n (i + 1)).inputs = [.ofNat i] := by simp [deepNode, h]
    have deeper := ih (i := i) (by omega) (by omega) (c := c.enter (.ofNat (i + 1))) new
      (above.enter (by omega))
    rw [Nat.add_sub_add_right]
    exact (Graph.lowerWithin_single known stored inputs).1 _ deeper

/-- A chain of one node more than are lowered is too long. -/
theorem compile_deepGraph : (deepGraph maxDepth).compile = .error (.tooDeep (.ofNat 0)) := by
  have small : maxDepth + 2 ≤ 4294967296 := by decide
  rw [Graph.compile_eq_error_iff ((deepGraph maxDepth).check_eq_ok_iff.mpr (valid_deepGraph small)),
    Graph.lowerOutputs, outputs_deepGraph (by decide)]
  have first : ((deepGraph maxDepth).lower (.ofNat maxDepth) .empty).2 =
      .error (.tooDeep (.ofNat 0)) :=
    tooDeep_deepGraph small maxDepth (Nat.le_refl _) (Nat.le_refl _) rfl fun _ h => (nomatch h)
  exact lowerEach_of_error first

end

/-- `loopGraph` shows a loop, and `deepGraph` a chain that is too long. -/
theorem compile_fault_witnesses_loopGraph :
    (∃ fault id loop, loopGraph.compile = .error fault ∧ fault.shown = some "E0103" ∧
      fault.diagnostic.causes.map (·.node) = loop.map some ∧ loopGraph.LoopFrom id loop) ∧
    ∃ fault n chain, (deepGraph maxDepth).compile = .error fault ∧
      fault.shown = some "E0104" ∧ fault.diagnostic.node = some n ∧
      (∃ output ∈ (deepGraph maxDepth).outputs, (deepGraph maxDepth).ChainFrom output.id chain) ∧
      chain.length = 1025 ∧ chain.getLast? = some n := by
  refine ⟨?_, ?_⟩
  · have valid : loopGraph.Valid := loopGraph.check_eq_ok_iff.mp (by decide +kernel)
    have failed : loopGraph.compile = .error (.cycle ⟨3⟩ [⟨3⟩, ⟨5⟩]) := by decide +kernel
    have shown := Fault.shown_eq (.cycle ⟨3⟩ [⟨3⟩, ⟨5⟩])
    obtain ⟨id, loop, -, causes, follows⟩ := (compile_fault_witnesses valid failed).1 shown
    exact ⟨_, id, loop, failed, shown, causes, follows⟩
  · have shown := Fault.shown_eq (.tooDeep (.ofNat 0))
    obtain ⟨n, chain, about, start, length, last⟩ :=
      (compile_fault_witnesses (valid_deepGraph (by decide)) compile_deepGraph).2 shown
    exact ⟨_, n, chain, compile_deepGraph, shown, about, start, length, last⟩

end NodeGraph
