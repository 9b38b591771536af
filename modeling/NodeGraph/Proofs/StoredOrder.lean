import NodeGraph.Proofs.Appending
import NodeGraph.Proofs.FaultWitnesses

/-!
# The verdict and the stored order

What a node depends on is told by ids, so storing the nodes of a valid graph in another order leaves
every dependency as it was (`Graph.dependsOn_of_perm`), and with it all cycles and chains. What the
order does decide is which output is lowered first. An output finds the symbols that earlier ones
left, and where it finds one it need not go deeper; so a chain that is too long to be followed in
one go may be lowered in two. `compile_reordered` says that this is all: the verdict is the same
when the outputs keep their order among each other, and when no chain is too long; and where it is
not the same, the graph that fails does so with `E0104`. That it may differ is
`order_decides_deepGraph`.
-/

namespace NodeGraph

open Relation

namespace Graph

variable {g h : Graph}

/-! ### What does not depend on the order -/

theorem node?_of_perm (validG : g.Valid) (validH : h.Valid) (perm : g.nodes.Perm h.nodes)
    (id : NodeId) : g.node? id = h.node? id := by
  refine Option.ext fun node => ?_
  rw [validG.node?_eq_some_iff, validH.node?_eq_some_iff, perm.mem_iff]

theorem dependsOn_of_perm (validG : g.Valid) (validH : h.Valid) (perm : g.nodes.Perm h.nodes) :
    g.DependsOn = h.DependsOn := by
  funext a b
  rw [DependsOn, DependsOn, inputsOf, inputsOf, node?_of_perm validG validH perm]

theorem mem_outputs_of_perm (perm : g.nodes.Perm h.nodes) {output : Node} :
    output ∈ g.outputs ↔ output ∈ h.outputs :=
  (perm.filter _).mem_iff

theorem liveCycle_of_perm (validG : g.Valid) (validH : h.Valid) (perm : g.nodes.Perm h.nodes) :
    g.LiveCycle ↔ h.LiveCycle := by
  simp only [LiveCycle, dependsOn_of_perm validG validH perm, mem_outputs_of_perm perm]

theorem chainsWithin_of_perm (validG : g.Valid) (validH : h.Valid) (perm : g.nodes.Perm h.nodes)
    (bound : Nat) : g.ChainsWithin bound ↔ h.ChainsWithin bound := by
  simp only [ChainsWithin, dependsOn_of_perm validG validH perm, mem_outputs_of_perm perm]

/-- Valid graphs with the same nodes and the same list of outputs compile alike. -/
theorem compile_of_perm (validG : g.Valid) (validH : h.Valid) (perm : g.nodes.Perm h.nodes)
    (outputs : g.outputs = h.outputs) : g.compile = h.compile := by
  have lowered : g.lowerOutputs = h.lowerOutputs := by
    rw [lowerOutputs, lowerOutputs, lower_congr (node?_of_perm validG validH perm), outputs]
  simp only [compile, g.check_eq_ok_iff.mpr validG, h.check_eq_ok_iff.mpr validH, lowered]

/-- When one order compiles, another one fails for nothing but a chain that is too long. -/
theorem tooDeep_of_perm (validG : g.Valid) (validH : h.Valid) (perm : g.nodes.Perm h.nodes)
    {p : Compiled} (compiled : g.compile = .ok p) {fault : Fault}
    (failed : h.compile = .error fault) :
    ∃ id, fault = .tooDeep id ∧ ¬h.ChainsWithin maxDepth := by
  have acyclic : ¬h.LiveCycle := by
    rw [← liveCycle_of_perm validG validH perm]
    exact not_liveCycle_of_lowerOutputs (compile_eq_ok compiled).2.1
  rw [compile_eq_error_iff (h.check_eq_ok_iff.mpr validH)] at failed
  obtain ⟨_, _, _, cyclic⟩ | deep := fault_of_lowerOutputs validH failed
  · exact absurd cyclic acyclic
  · exact deep

/-- When no chain is too long, an order compiles if another one does. -/
theorem exists_compiled_of_perm (validG : g.Valid) (validH : h.Valid)
    (perm : g.nodes.Perm h.nodes) (within : h.ChainsWithin maxDepth)
    (compiled : ∃ p, g.compile = .ok p) : ∃ q, h.compile = .ok q := by
  obtain ⟨p, hp⟩ := compiled
  cases hq : h.compile with
  | ok q => exact ⟨q, rfl⟩
  | error fault =>
    obtain ⟨_, _, deep⟩ := tooDeep_of_perm validG validH perm hp hq
    exact absurd within deep

theorem perm_reverse (g : Graph) : g.nodes.Perm g.reverse.nodes :=
  (List.reverse_perm g.nodes).symm

theorem Valid.reverse {g : Graph} (h : g.Valid) : g.reverse.Valid := by
  have ids : g.reverse.ids = g.ids.reverse := List.map_reverse
  refine ⟨?_, fun node hn i hi => ?_⟩
  · rw [ids, List.nodup_reverse]
    exact h.distinct
  · rw [ids, List.mem_reverse]
    exact h.closed node (List.mem_reverse.mp hn) i hi

end Graph

/-- **When the stored order does not decide the verdict.** Let two valid graphs have the same nodes
in two orders. If their outputs stand in the same order, or if no dependency chain without repeats
that starts at an output has more than `maxDepth` nodes, one of them compiles exactly when the other
does. In any case, when one of them compiles and the other fails, it fails with `E0104`. -/
theorem compile_reordered {g h : Graph} (validG : g.Valid) (validH : h.Valid)
    (perm : g.nodes.Perm h.nodes) :
    (g.outputs = h.outputs ∨ g.ChainsWithin maxDepth →
      ((∃ p, g.compile = .ok p) ↔ ∃ q, h.compile = .ok q)) ∧
    ∀ p fault, g.compile = .ok p → h.compile = .error fault → fault.shown = some "E0104" := by
  refine ⟨?_, fun p fault compiled failed => ?_⟩
  · rintro (outputs | within)
    · rw [Graph.compile_of_perm validG validH perm outputs]
    · have within' := (Graph.chainsWithin_of_perm validG validH perm maxDepth).mp within
      exact ⟨Graph.exists_compiled_of_perm validG validH perm within',
        Graph.exists_compiled_of_perm validH validG perm.symm within⟩
  · obtain ⟨id, rfl, -⟩ := Graph.tooDeep_of_perm validG validH perm compiled failed
    exact Fault.shown_eq _

/-- The outputs of `sharedGraph` change places when it is turned round, and it still compiles. -/
theorem compile_reordered_sharedGraph :
    sharedGraph.outputs ≠ sharedGraph.reverse.outputs ∧
      ∃ q, sharedGraph.reverse.compile = .ok q := by
  have valid : sharedGraph.Valid := sharedGraph.check_eq_ok_iff.mp (by decide +kernel)
  have within : sharedGraph.ChainsWithin maxDepth := valid.chainsWithin.mono (by decide)
  have same := (compile_reordered valid valid.reverse sharedGraph.perm_reverse).1 (.inr within)
  exact ⟨by decide +kernel, same.mp ⟨_, rfl⟩⟩

/-! ### When it does -/

/-- A request for a node of the chain is answered when there is room for the nodes above the
constant, and the constant has a symbol. -/
theorem answered_deepGraph {g : Graph} {n : Nat} (small : n < 4294967296)
    (found : ∀ i < n + 2, g.node? (.ofNat i) = some (deepNode n i)) (room : Nat) {i : Nat}
    (h : i ≤ n) (fits : i ≤ room) {c : Context} {s : Symbol}
    (bottom : c.symbol? (.ofNat 0) = some s) (above : c.Above i) : ∃ t, (g.lowerWithin room (.ofNat i) c).2 = .ok t := by
  induction room generalizing i c with
  | zero =>
    obtain rfl : i = 0 := Nat.le_zero.mp fits
    rw [Graph.lowerWithin]
    simp [Context.known?, bottom]
  | succ room ih =>
    cases bound : c.symbol? (.ofNat i) with
    | some t =>
      rw [Graph.lowerWithin]
      simp [Context.known?, bound]
    | none =>
      obtain ⟨j, rfl⟩ : ∃ j, i = j + 1 := by
        refine ⟨i - 1, ?_⟩
        rcases Nat.eq_zero_or_pos i with rfl | pos
        · cases bound.symm.trans bottom
        · omega
      have inputs : (deepNode n (j + 1)).inputs = [.ofNat j] := by simp [deepNode, h]
      obtain ⟨t, deeper⟩ := ih (i := j) (by omega) (by omega)
        (c := c.enter (.ofNat (j + 1))) bottom (above.enter (by omega))
      exact (Graph.lowerWithin_single (above.known? (by omega) bound) (found _ (by omega))
        inputs).2 t deeper

/-- A request for the second output is answered on a new context, and gives the constant a
symbol. -/
theorem lower_second_deepGraph {g : Graph} {n : Nat} (small : n + 1 < 4294967296)
    (found : ∀ i < n + 2, g.node? (.ofNat i) = some (deepNode n i)) :
    ∃ c s t, g.lower (.ofNat (n + 1)) .empty = (c, .ok s) ∧ c.path = [] ∧ c.onPath = [] ∧
      c.symbol? (.ofNat 0) = some t := by
  have inputs : (deepNode n (n + 1)).inputs = [.ofNat 0] := by simp [deepNode]
  have stored := found (n + 1) (by omega)
  have nothing (i : Nat) : Context.empty.Above i := List.forall_mem_nil _
  have known := (nothing (n + 1)).known? small rfl
  obtain ⟨s, answered⟩ : ∃ s, (g.lower (.ofNat (n + 1)) .empty).2 = .ok s := by
    have bottom : ∃ t, (g.lowerWithin 1023 (.ofNat 0) (Context.empty.enter (.ofNat (n + 1)))).2 =
        .ok t := by
      have above : (Context.empty.enter (.ofNat (n + 1))).Above 0 := by
        intro id hid
        rw [List.mem_singleton.mp hid, NodeId.toNat_ofNat small]
        exact Nat.succ_pos n
      rw [Graph.lowerWithin, above.known? (by decide) rfl]
      simp only [found 0 (by omega), deepNode, if_pos, lowerEach]
      exact ⟨_, rfl⟩
    obtain ⟨t, bottom⟩ := bottom
    exact (Graph.lowerWithin_single known stored inputs).2 t bottom
  have request := Graph.lower_request (g := g) Context.tracked_empty (.ofNat (n + 1))
  rw [answered] at request
  obtain ⟨path, onPath⟩ := request.path [s] rfl
  refine ⟨(g.lower (.ofNat (n + 1)) .empty).1, s, ?_⟩
  -- The output has a symbol, so its input has one.
  have start : Context.empty.Closed g := List.forall_mem_nil _
  have closed := start.steps Context.tracked_empty request.steps
  have output := (request.binds [s] rfl).of_mem_ids List.mem_cons_self
  have feeds : g.DependsOn (.ofNat (n + 1)) (.ofNat 0) := by
    rw [Graph.dependsOn_iff stored, inputs]
    exact List.mem_cons_self
  obtain ⟨t, ht⟩ := (Context.mem_order_iff _ _).mp
    (closed _ ((Context.mem_order_iff _ _).mpr output) _ feeds)
  exact ⟨t, Prod.ext rfl answered, path, onPath, ht⟩

/-- Turned round, a chain of one node more than are lowered compiles. -/
theorem compile_reverse_deepGraph : ∃ p, (deepGraph maxDepth).reverse.compile = .ok p := by
  have valid := valid_deepGraph (n := maxDepth) (by decide)
  have found (i : Nat) (hi : i < maxDepth + 2) :
      (deepGraph maxDepth).reverse.node? (.ofNat i) = some (deepNode maxDepth i) := by
    rw [← Graph.node?_of_perm valid valid.reverse (Graph.perm_reverse _),
      node?_deepGraph (by decide) hi]
  have outputs : (deepGraph maxDepth).reverse.outputs.map (·.id) =
      [.ofNat (maxDepth + 1), .ofNat maxDepth] := by
    rw [Graph.outputs, Graph.reverse, List.filter_reverse, ← Graph.outputs,
      outputs_deepGraph (by decide)]
    rfl
  obtain ⟨c, s, t, first, path, onPath, bottom⟩ := lower_second_deepGraph (by decide) found
  have above : c.Above maxDepth := by
    intro id hid
    rw [onPath] at hid
    cases hid
  obtain ⟨u, second⟩ : ∃ u, ((deepGraph maxDepth).reverse.lower (.ofNat maxDepth) c).2 = .ok u := by
    rw [Graph.lower, path]
    exact answered_deepGraph (by decide) found maxDepth (Nat.le_refl _) (Nat.le_refl _) bottom above
  cases compiled : (deepGraph maxDepth).reverse.compile with
  | ok p => exact ⟨p, rfl⟩
  | error fault =>
    rw [Graph.compile_eq_error_iff ((deepGraph maxDepth).reverse.check_eq_ok_iff.mpr valid.reverse),
      Graph.lowerOutputs, outputs, lowerEach_cons_eq_ok.mpr ⟨c, s, [u], first,
        lowerEach_cons_eq_ok.mpr ⟨_, u, [], Prod.ext rfl second, rfl, rfl⟩, rfl⟩] at compiled
    cases compiled

/-- **The stored order may decide the verdict.** A chain of one node more than are lowered does not
compile; turned round, the same nodes do, because the second output lowers the constant first. -/
theorem order_decides_deepGraph :
    let g := deepGraph maxDepth
    g.Valid ∧ g.reverse.Valid ∧ g.nodes.Perm g.reverse.nodes ∧
      (∃ fault, g.compile = .error fault ∧ fault.shown = some "E0104") ∧
      ∃ p, g.reverse.compile = .ok p := by
  have valid := valid_deepGraph (n := maxDepth) (by decide)
  exact ⟨valid, valid.reverse, Graph.perm_reverse _,
    ⟨_, compile_deepGraph, Fault.shown_eq _⟩, compile_reverse_deepGraph⟩

end NodeGraph
