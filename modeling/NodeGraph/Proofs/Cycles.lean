import NodeGraph.Proofs.Order
import NodeGraph.Proofs.Validity

/-!
# Cycles and long chains

A valid graph fails to compile for one of two reasons: an output depends on a node that depends on
itself, or a dependency chain is too long to be followed. `compile_outcome` says when. A graph that
compiles has no cycle below an output; and when every chain without repeats that starts at an output
has at most `maxDepth` nodes, a graph compiles exactly when there is no such cycle.

Both directions come from what requests leave behind. A node gets its symbol after its inputs, so
no cycle runs through nodes with symbols (`Graph.Steps.acc`). A fault stands at the end of the path,
and the path is a chain from an output: one that closes, or one that has no repeats and is full.
-/

namespace NodeGraph

open Relation

namespace Graph

/-- A node that an output depends on depends on itself. -/
def LiveCycle (g : Graph) : Prop :=
  ∃ output ∈ g.outputs, ∃ id, ReflTransGen g.DependsOn output.id id ∧ TransGen g.DependsOn id id

/-- Every dependency chain without repeats that starts at an output has at most so many nodes. -/
def ChainsWithin (g : Graph) (bound : Nat) : Prop :=
  ∀ chain : List NodeId, chain.IsChain g.DependsOn → chain.Nodup →
    (∃ output ∈ g.outputs, chain.head? = some output.id) → chain.length ≤ bound

/-! ### Chains -/

section

variable {α : Type} {r : α → α → Prop}

theorem transGen_of_isChain {a b : α} {l : List α} (h : (a :: (l ++ [b])).IsChain r) :
    TransGen r a b := by
  induction l generalizing a with
  | nil => exact .single (List.isChain_pair.mp h)
  | cons c l ih =>
    rw [List.cons_append, List.isChain_cons_cons] at h
    exact .head h.1 (ih h.2)

theorem reflTransGen_of_isChain {a b : α} {l : List α} (h : (l ++ [b]).IsChain r)
    (start : (l ++ [b]).head? = some a) : ReflTransGen r a b := by
  cases l with
  | nil =>
    cases start
    exact .refl
  | cons c l =>
    cases start
    exact (transGen_of_isChain h).to_reflTransGen

/-- A well-founded node does not come back to itself. -/
theorem not_transGen_of_acc {a : α} (h : Acc (flip r) a) : ¬TransGen r a a := by
  induction h with
  | intro a _ ih =>
    intro cycle
    obtain ⟨b, hab, hba⟩ := TransGen.head'_iff.mp cycle
    exact ih b hab (.tail' hba hab)

theorem acc_of_reflTransGen {a b : α} (h : Acc (flip r) a) (s : ReflTransGen r a b) :
    Acc (flip r) b := by
  induction s with
  | refl => exact h
  | tail _ step ih => exact ih.inv step

end

/-! ### Graphs that compile -/

/-- Below a node with a symbol there is no infinite descent. -/
theorem Steps.acc {g : Graph} {c : Context} (s : g.Steps .empty c) {id : NodeId} {t : Symbol}
    (h : c.symbol? id = some t) : Acc (flip g.DependsOn) id := by
  refine s.invariant (P := fun c => ∀ id t, c.symbol? id = some t → Acc (flip g.DependsOn) id)
    Context.tracked_empty (fun _ _ h => (nomatch h)) (fun _ _ _ h => h) ?_ id t h
  intro c node args _ stored bound h id t ht
  rw [Context.symbol?_settle] at ht
  split at ht
  · subst id
    refine ⟨_, fun i hi => ?_⟩
    obtain ⟨a, ha⟩ := bound.of_mem_ids ((dependsOn_iff stored).mp hi)
    exact h i a ha
  · exact h id t ht

theorem not_liveCycle_of_lowerOutputs {g : Graph} {outputs : List Symbol}
    (h : g.lowerOutputs.2 = .ok outputs) : ¬g.LiveCycle := by
  rintro ⟨output, hout, id, reach, cycle⟩
  have request := g.lowerOutputs_request
  obtain ⟨s, hs⟩ := (request.binds outputs h).of_mem_ids (List.mem_map_of_mem hout)
  exact not_transGen_of_acc (acc_of_reflTransGen (request.steps.acc hs) reach) cycle

/-! ### Faults -/

/-- An input is stored, in a valid graph. -/
theorem Valid.mem_ids_of_dependsOn {g : Graph} (valid : g.Valid) {a b : NodeId}
    (h : g.DependsOn a b) : b ∈ g.ids := by
  cases stored : g.node? a with
  | none =>
    rw [DependsOn, inputsOf, stored] at h
    cases h
  | some node => exact valid.closed node (mem_of_node? stored) b ((dependsOn_iff stored).mp h)

/-- What a node depends on is stored, in a valid graph. -/
theorem Valid.mem_ids {g : Graph} (valid : g.Valid) {a b : NodeId} (ha : a ∈ g.ids)
    (h : ReflTransGen g.DependsOn a b) : b ∈ g.ids := by
  cases h with
  | refl => exact ha
  | tail _ step => exact valid.mem_ids_of_dependsOn step

theorem node?_ne_none {g : Graph} {id : NodeId} (h : id ∈ g.ids) : g.node? id ≠ none := by
  obtain ⟨node, hn, rfl⟩ := List.mem_map.mp h
  intro missing
  exact List.find?_eq_none.mp missing node hn (beq_self_eq_true _)

section

variable {g : Graph} {starts trail : List NodeId} {c c' : Context} {stop : NodeId} {fault : Fault}

/-- A request that stops at a node of its own trail went around a cycle. -/
theorem Stopped.transGen (h : g.Stopped starts c c' trail stop fault) (again : stop ∈ trail) :
    TransGen g.DependsOn stop stop := by
  obtain ⟨before, after, rfl⟩ := List.append_of_mem again
  have loop := h.chain
  rw [List.append_assoc, List.cons_append] at loop
  exact transGen_of_isChain loop.right_of_append

/-- A request that stops at a node that is not on the path met no node twice. -/
theorem Stopped.nodup (h : g.Stopped starts c c' trail stop fault) (tracked : c'.Tracked)
    (fresh : stop ∉ c'.path) : (trail ++ [stop]).Nodup := by
  rw [h.path, List.mem_append, List.mem_reverse, not_or] at fresh
  have nodup := tracked.nodup
  rw [h.path] at nodup
  exact List.concat_eq_append ▸ (List.nodup_reverse.mp nodup.of_append_left).concat fresh.1

end

/-- Why lowering the outputs of a valid graph ends with a fault: a node that is met again below an
output, or a chain without repeats that is one node too long. -/
theorem fault_of_lowerOutputs {g : Graph} (valid : g.Valid) {fault : Fault}
    (h : g.lowerOutputs.2 = .error fault) :
    (∃ id loop, fault = .cycle id loop ∧ g.LiveCycle) ∨
      ∃ id, fault = .tooDeep id ∧ ¬g.ChainsWithin maxDepth := by
  have request := g.lowerOutputs_request
  have tracked := Context.tracked_empty.steps request.steps
  obtain ⟨trail, stop, stopped⟩ := request.stopped fault h
  obtain ⟨start, hstart, head⟩ := stopped.start
  obtain ⟨output, hout, rfl⟩ := List.mem_map.mp hstart
  have path : g.lowerOutputs.1.path = trail.reverse := by
    rw [stopped.path]
    exact List.append_nil _
  have reach := reflTransGen_of_isChain stopped.chain head
  cases stopped.cause with
  | cycle again =>
    rw [path, List.mem_reverse] at again
    exact .inl ⟨stop, _, rfl, output, hout, stop, reach, stopped.transGen again⟩
  | tooDeep _ fresh full =>
    refine .inr ⟨stop, rfl, fun within => ?_⟩
    have := within _ stopped.chain (stopped.nodup tracked fresh) ⟨output, hout, head⟩
    rw [path, List.length_reverse] at full
    rw [List.length_append, List.length_singleton] at this
    omega
  | unknownNode missing =>
    have stored : output.id ∈ g.ids := List.mem_map_of_mem (List.mem_of_mem_filter hout)
    exact absurd missing (node?_ne_none (valid.mem_ids stored reach))

/-- A chain without repeats in a valid graph has no more nodes than the graph. -/
theorem Valid.chainsWithin {g : Graph} (valid : g.Valid) : g.ChainsWithin g.nodes.length := by
  rintro chain linked nodup ⟨output, hout, head⟩
  have start : output.id ∈ g.ids := List.mem_map_of_mem (List.mem_of_mem_filter hout)
  have stored : chain ⊆ g.ids := by
    intro id hid
    obtain ⟨before, after, rfl⟩ := List.append_of_mem hid
    rw [List.append_cons] at linked
    refine valid.mem_ids start (reflTransGen_of_isChain linked.left_of_append ?_)
    cases before <;> exact head
  have := (nodup.subperm stored).length_le
  simpa [ids] using this

theorem ChainsWithin.mono {g : Graph} {m n : Nat} (h : g.ChainsWithin m) (le : m ≤ n) :
    g.ChainsWithin n :=
  fun chain linked nodup start => (h chain linked nodup start).trans le

end Graph

/-! ### Codes -/

/-- The code of a fault. -/
def Fault.code : Fault → Diagnostic.Code
  | .duplicateId _ _ _ => .duplicateId
  | .danglingInput _ _ => .unknownNode
  | .cycle _ _ => .cycle
  | .tooDeep _ => .tooDeep
  | .unknownNode _ => .unknownNode

/-- A cause keeps the code, so a cause chain does. -/
theorem Diagnostic.code_foldl_withCause {α : Type} (message : α → String) (node : α → Option NodeId)
    (l : List α) (d : Diagnostic) :
    (l.foldl (fun d a => d.withCause (message a) (node a)) d).code = d.code := by
  induction l generalizing d with
  | nil => rfl
  | cons a l ih => exact ih _

/-- The diagnostic of a fault has the code of the fault. -/
theorem Fault.code_diagnostic (fault : Fault) : fault.diagnostic.code = some fault.code := by
  cases fault with
  | cycle id loop => exact Diagnostic.code_foldl_withCause _ _ loop _
  | _ => rfl

/-! ### The outcome -/

/-- **When a graph compiles.** Let no id of a graph be stored twice and no input dangle. If it
compiles, no cycle is below an output. If moreover no chain without repeats from an output is longer
than `maxDepth`, it compiles when there is no such cycle, and fails with `E0103` when there is one.
And `E0103` and `E0104` are all the codes that it can fail with. What the nodes hold does not
matter, and neither do the options, which only concern the writing of what compiled. -/
theorem compile_outcome {g : Graph} (valid : g.Valid) :
    (∀ p, g.compile = .ok p → ¬g.LiveCycle) ∧
    (g.ChainsWithin maxDepth →
      (¬g.LiveCycle → ∃ p, g.compile = .ok p) ∧
      (g.LiveCycle → ∃ fault, g.compile = .error fault ∧
        fault.diagnostic.code.map (·.text) = some "E0103")) ∧
    ∀ fault, g.compile = .error fault →
      fault.diagnostic.code.map (·.text) = some "E0103" ∨
        fault.diagnostic.code.map (·.text) = some "E0104" := by
  have checked := g.check_eq_ok_iff.mpr valid
  have compiles p (h : g.compile = .ok p) : ¬g.LiveCycle :=
    Graph.not_liveCycle_of_lowerOutputs (Graph.compile_eq_ok h).2.1
  have fails fault (h : g.compile = .error fault) :=
    Graph.fault_of_lowerOutputs valid ((Graph.compile_eq_error_iff checked).mp h)
  refine ⟨compiles, fun within => ⟨fun acyclic => ?_, fun cyclic => ?_⟩, fun fault h => ?_⟩
  · cases h : g.compile with
    | ok p => exact ⟨p, rfl⟩
    | error fault =>
      obtain ⟨_, _, _, cyclic⟩ | ⟨_, _, deep⟩ := fails fault h
      · exact absurd cyclic acyclic
      · exact absurd within deep
  · cases h : g.compile with
    | ok p => exact absurd cyclic (compiles p h)
    | error fault =>
      obtain ⟨_, _, rfl, _⟩ | ⟨_, _, deep⟩ := fails fault h
      · exact ⟨_, rfl, by rw [Fault.code_diagnostic]; rfl⟩
      · exact absurd within deep
  · obtain ⟨_, _, rfl, _⟩ | ⟨_, rfl, _⟩ := fails fault h
    · exact .inl (by rw [Fault.code_diagnostic]; rfl)
    · exact .inr (by rw [Fault.code_diagnostic]; rfl)

/-- A graph in which `n4` is shared and the cycle of `n3` and `n5` is below the output `n8`; nothing
takes `n6`, which takes itself. -/
def loopGraph : Graph :=
  let node (id : UInt32) (kind : Kind) (inputs : List UInt32) : Node :=
    ⟨⟨id⟩, .control, kind, inputs.map NodeId.mk⟩
  ⟨[node 2 .valueOutput [4], node 4 (.input "time") [], node 3 (.math "add" []) [4, 5],
    node 5 (.math "abs" []) [3], node 8 .audioOutput [3], node 6 (.math "abs" []) [6]], ⟨9⟩⟩

/-- The chains of `loopGraph` are short and it has a live cycle, so it fails with `E0103`. -/
theorem compile_outcome_loopGraph :
    loopGraph.Valid ∧ loopGraph.ChainsWithin maxDepth ∧ loopGraph.LiveCycle ∧
      ∃ fault, loopGraph.compile = .error fault ∧
        fault.diagnostic.code.map (·.text) = some "E0103" := by
  have valid : loopGraph.Valid := loopGraph.check_eq_ok_iff.mp (by decide +kernel)
  have within : loopGraph.ChainsWithin maxDepth := valid.chainsWithin.mono (by decide)
  have cyclic : loopGraph.LiveCycle := by
    have edge (a b : NodeId) (h : b ∈ loopGraph.inputsOf a) : loopGraph.DependsOn a b := h
    have output : (⟨⟨8⟩, .control, .audioOutput, [⟨3⟩]⟩ : Node) ∈ loopGraph.outputs := by
      decide +kernel
    exact ⟨_, output, ⟨3⟩, .single (edge _ _ (by decide +kernel)),
      .head (edge _ ⟨5⟩ (by decide +kernel)) (.single (edge _ _ (by decide +kernel)))⟩
  exact ⟨valid, within, cyclic, ((compile_outcome valid).2.1 within).2 cyclic⟩

end NodeGraph
