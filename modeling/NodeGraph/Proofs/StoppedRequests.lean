import NodeGraph.Proofs.Renaming
import NodeGraph.Proofs.SingleAssignment

/-!
# Requests after a fault

A request that ends with `E0103` or `E0104` leaves its trail on the path, and nothing takes it off
again: later requests on the same context meet the trail as if its nodes were still being lowered.
So what these two faults say is to be believed on a context whose path is empty, and it is empty as
long as no request ended with one of them (`path_afterRequests_eq_nil_iff`). `lower_truthful` says
that the first such fault on a context is right, and what is left of this for the later ones.
-/

namespace NodeGraph

open Relation

/-- The text of the code that the diagnostic of a fault shows. -/
def Fault.shown (fault : Fault) : Option String := fault.diagnostic.code.map (·.text)

theorem Fault.shown_eq (fault : Fault) : fault.shown = some fault.code.text := by
  rw [shown, code_diagnostic]
  rfl

theorem Fault.cycle_of_shown {fault : Fault} (h : fault.shown = some "E0103") :
    ∃ id loop, fault = .cycle id loop := by
  rw [shown_eq] at h
  cases fault with
  | cycle id loop => exact ⟨id, loop, rfl⟩
  | _ => simp [code, Diagnostic.Code.text] at h

theorem Fault.tooDeep_of_shown {fault : Fault} (h : fault.shown = some "E0104") :
    ∃ id, fault = .tooDeep id := by
  rw [shown_eq] at h
  cases fault with
  | tooDeep id => exact ⟨id, rfl⟩
  | _ => simp [code, Diagnostic.Code.text] at h

namespace Graph

/-- A dependency chain without repeats that starts at a node. -/
structure ChainFrom (g : Graph) (start : NodeId) (chain : List NodeId) : Prop where
  linked : chain.IsChain g.DependsOn
  nodup : chain.Nodup
  head : chain.head? = some start

/-- What the fault of a request says of the graph is so: `E0103` names a node that depends on
itself, and `E0104` means that a chain from the node asked for is too long. -/
structure Truthful (g : Graph) (requested : NodeId) (fault : Fault) : Prop where
  cycle : fault.shown = some "E0103" →
    ∃ id, fault.diagnostic.node = some id ∧ TransGen g.DependsOn id id
  tooDeep : fault.shown = some "E0104" →
    ∃ chain, g.ChainFrom requested chain ∧ maxDepth < chain.length

/-- None of some requests, made one after the other on a new context, ends with `E0103` or
`E0104`. -/
def Unstopped (g : Graph) (requests : List NodeId) : Prop :=
  ∀ earlier id, earlier ++ [id] <+: requests →
    ∀ fault, (g.lower id (g.afterRequests earlier)).2 = .error fault →
      fault.shown ≠ some "E0103" ∧ fault.shown ≠ some "E0104"

theorem unstopped_nil (g : Graph) : g.Unstopped [] := by
  intro earlier id h
  exact absurd (List.prefix_nil.mp h) (List.concat_ne_nil id earlier)

theorem unstopped_concat {g : Graph} {requests : List NodeId} {id : NodeId} :
    g.Unstopped (requests ++ [id]) ↔ g.Unstopped requests ∧
      ∀ fault, (g.lower id (g.afterRequests requests)).2 = .error fault →
        fault.shown ≠ some "E0103" ∧ fault.shown ≠ some "E0104" := by
  constructor
  · intro h
    exact ⟨fun earlier i le => h earlier i (le.trans (List.prefix_append _ _)),
      h requests id (List.prefix_refl _)⟩
  · rintro ⟨old, new⟩ earlier i le
    rcases List.prefix_concat_iff.mp le with same | le
    · obtain ⟨rfl, last⟩ := List.append_inj' same rfl
      cases last
      exact new
    · exact old earlier i le

/-! ### The path -/

/-- How a request that ends with a fault was stopped. -/
theorem stopped_of_lower {g : Graph} {c : Context} (tracked : c.Tracked) {id : NodeId}
    {fault : Fault} (h : (g.lower id c).2 = .error fault) :
    ∃ trail stop, g.Stopped [id] c (g.lower id c).1 trail stop fault :=
  (lower_request tracked id).stopped fault (by rw [h]; rfl)

/-- In a valid graph a stopped request leaves the path empty when it found it so and was stopped by
neither a cycle nor a chain that is too long: its node is not stored then. -/
theorem Stopped.path_eq_nil_iff {g : Graph} (valid : g.Valid) {starts trail : List NodeId}
    {c c' : Context} {stop : NodeId} {fault : Fault}
    (h : g.Stopped starts c c' trail stop fault) :
    c'.path = [] ↔ c.path = [] ∧ fault.shown ≠ some "E0103" ∧ fault.shown ≠ some "E0104" := by
  rw [Fault.shown_eq]
  cases h.cause with
  | cycle again =>
    have : c'.path ≠ [] := List.ne_nil_of_mem again
    simp [this, Fault.code, Diagnostic.Code.text]
  | tooDeep _ _ full =>
    have : c'.path ≠ [] := by
      intro empty
      rw [empty] at full
      cases full
    simp [this, Fault.code, Diagnostic.Code.text]
  | unknownNode missing =>
    -- The last node of a trail takes its input from where the request stopped.
    have none : trail = [] := by
      cases trail using List.reverseRecOn with
      | nil => rfl
      | append_singleton front last =>
        have linked := h.chain
        rw [List.append_assoc] at linked
        have step := List.isChain_pair.mp linked.right_of_append
        exact absurd missing (node?_ne_none (valid.mem_ids_of_dependsOn step))
    rw [h.path, none]
    simp [Fault.code, Diagnostic.Code.text]

/-- The path is empty exactly as long as no request ended with `E0103` or `E0104`. -/
theorem path_afterRequests_eq_nil_iff {g : Graph} (valid : g.Valid) (requests : List NodeId) :
    (g.afterRequests requests).path = [] ↔ g.Unstopped requests := by
  induction requests using List.reverseRecOn with
  | nil => exact iff_of_true rfl g.unstopped_nil
  | append_singleton requests id ih =>
    have tracked := g.afterRequests_tracked requests
    rw [unstopped_concat, afterRequests_concat, ← ih]
    cases answer : (g.lower id (g.afterRequests requests)).2 with
    | ok s =>
      have path := ((lower_request tracked id).path [s] (by rw [answer]; rfl)).1
      rw [path]
      exact (and_iff_left (fun _ h => nomatch h)).symm
    | error fault =>
      obtain ⟨trail, stop, stopped⟩ := stopped_of_lower tracked answer
      rw [stopped.path_eq_nil_iff valid]
      simp

/-! ### Faults on any path -/

/-- A node on the path is refused as a cycle. -/
theorem lower_of_mem_path {g : Graph} {c : Context} (tracked : c.Tracked) {id : NodeId}
    (h : id ∈ c.path) : (g.lower id c).2 = .error (.cycle id (c.pathFrom id)) := by
  have known : c.known? id = some (.error (.cycle id (c.pathFrom id))) := by
    rw [Context.known?, tracked.apart id h]
    simp [tracked.onPath, h]
  unfold lower
  cases maxDepth - c.path.length with
  | zero => rw [lowerWithin, known]; rfl
  | succ room => rw [lowerWithin, known]

/-- A node that is reported to depend on itself does, or was on the path before the request. -/
theorem transGen_of_lower {g : Graph} {c : Context} (tracked : c.Tracked) {id n : NodeId}
    {loop : List NodeId} (h : (g.lower id c).2 = .error (.cycle n loop)) :
    TransGen g.DependsOn n n ∨ n ∈ c.path := by
  obtain ⟨trail, stop, stopped⟩ := stopped_of_lower tracked h
  cases stopped.cause with
  | cycle again =>
    rw [stopped.path, List.mem_append, List.mem_reverse] at again
    exact again.imp_left stopped.transGen

/-- A chain that is reported to be too long is so together with the path before the request. -/
theorem chainFrom_of_lower {g : Graph} {c : Context} (tracked : c.Tracked) {id n : NodeId}
    (h : (g.lower id c).2 = .error (.tooDeep n)) :
    ∃ chain, g.ChainFrom id chain ∧ maxDepth < c.path.length + chain.length := by
  obtain ⟨trail, stop, stopped⟩ := stopped_of_lower tracked h
  obtain ⟨start, hstart, head⟩ := stopped.start
  cases List.mem_singleton.mp hstart
  cases stopped.cause with
  | tooDeep _ fresh full =>
    have nodup := stopped.nodup (tracked.steps (lower_request tracked id).steps) fresh
    refine ⟨trail ++ [n], ⟨stopped.chain, nodup, head⟩, ?_⟩
    rw [stopped.path, List.length_append, List.length_reverse] at full
    rw [List.length_append, List.length_singleton]
    omega

end Graph

/-- **When the faults of requests are to be believed.** Let no id of a graph be stored twice and no
input dangle, and let some requests be made on a new context. As long as none of them ended with
`E0103` or `E0104`, the next one that does tells the truth. After such a fault every `E0103` still
names a node on a cycle exactly when every node that was left on the path is on one; and an `E0104`
only means that what was left on the path and a chain from the node asked for are too long
together. -/
theorem lower_truthful {g : Graph} (valid : g.Valid) (requests : List NodeId) :
    let before := g.afterRequests requests
    (g.Unstopped requests →
      ∀ id fault, (g.lower id before).2 = .error fault → g.Truthful id fault) ∧
    ((∀ id fault, (g.lower id before).2 = .error fault → fault.shown = some "E0103" →
        ∃ n, fault.diagnostic.node = some n ∧ TransGen g.DependsOn n n) ↔
      ∀ n ∈ before.path, TransGen g.DependsOn n n) ∧
    ∀ id fault, (g.lower id before).2 = .error fault → fault.shown = some "E0104" →
      ∃ chain, g.ChainFrom id chain ∧ maxDepth < before.path.length + chain.length := by
  intro before
  have tracked : before.Tracked := g.afterRequests_tracked requests
  have cyclic (onCycle : ∀ n ∈ before.path, TransGen g.DependsOn n n) id fault
      (h : (g.lower id before).2 = .error fault) (shown : fault.shown = some "E0103") :
      ∃ n, fault.diagnostic.node = some n ∧ TransGen g.DependsOn n n := by
    obtain ⟨n, loop, rfl⟩ := Fault.cycle_of_shown shown
    refine ⟨n, Fault.node_diagnostic _, ?_⟩
    rcases Graph.transGen_of_lower tracked h with cycle | left
    · exact cycle
    · exact onCycle n left
  have deep id fault (h : (g.lower id before).2 = .error fault)
      (shown : fault.shown = some "E0104") :
      ∃ chain, g.ChainFrom id chain ∧ maxDepth < before.path.length + chain.length := by
    obtain ⟨n, rfl⟩ := Fault.tooDeep_of_shown shown
    exact Graph.chainFrom_of_lower tracked h
  refine ⟨fun unstopped id fault h => ?_, ⟨fun told n hn => ?_, cyclic⟩, deep⟩
  · have empty : before.path = [] :=
      (Graph.path_afterRequests_eq_nil_iff valid requests).mpr unstopped
    refine ⟨cyclic (fun n hn => ?_) id fault h, fun shown => ?_⟩
    · rw [empty] at hn
      cases hn
    · obtain ⟨chain, hchain, long⟩ := deep id fault h shown
      rw [empty, List.length_nil, Nat.zero_add] at long
      exact ⟨chain, hchain, long⟩
  · -- A request for a node that was left on the path is refused, and the fault names that node.
    have refused := Graph.lower_of_mem_path (g := g) tracked hn
    obtain ⟨m, named, cycle⟩ := told n _ refused (Fault.shown_eq _)
    rw [Fault.node_diagnostic] at named
    cases named
    exact cycle

/-- A graph in which `n0` takes `n1`, which takes itself, and `n2` takes nothing. -/
def trailGraph : Graph :=
  let node (id : UInt32) (kind : Kind) (inputs : List UInt32) : Node :=
    ⟨⟨id⟩, .control, kind, inputs.map NodeId.mk⟩
  ⟨[node 0 (.math "abs" []) [1], node 1 (.math "abs" []) [1], node 2 (.input "time") []], ⟨3⟩⟩

theorem valid_trailGraph : trailGraph.Valid :=
  trailGraph.check_eq_ok_iff.mp (by decide +kernel)

/-- After a request for `n2` alone the `E0103` for `n0` is truthful. After one for `n1`, which is
left on the path, every `E0103` still names a node on a cycle. -/
theorem lower_truthful_trailGraph :
    trailGraph.Unstopped [⟨2⟩] ∧
    (∃ fault, (trailGraph.lower ⟨0⟩ (trailGraph.afterRequests [⟨2⟩])).2 = .error fault ∧
      fault.shown = some "E0103" ∧ trailGraph.Truthful ⟨0⟩ fault) ∧
    (trailGraph.afterRequests [⟨1⟩]).path = [⟨1⟩] ∧
    ∀ id fault, (trailGraph.lower id (trailGraph.afterRequests [⟨1⟩])).2 = .error fault →
      fault.shown = some "E0103" →
        ∃ n, fault.diagnostic.node = some n ∧ TransGen trailGraph.DependsOn n n := by
  have unstopped : trailGraph.Unstopped [⟨2⟩] :=
    (Graph.path_afterRequests_eq_nil_iff valid_trailGraph _).mp (by decide +kernel)
  have refused : (trailGraph.lower ⟨0⟩ (trailGraph.afterRequests [⟨2⟩])).2 =
      .error (.cycle ⟨1⟩ [⟨1⟩]) := by decide +kernel
  have left : (trailGraph.afterRequests [⟨1⟩]).path = [⟨1⟩] := by decide +kernel
  refine ⟨unstopped, ⟨_, refused, Fault.shown_eq _, ?_⟩, left, ?_⟩
  · exact (lower_truthful valid_trailGraph [⟨2⟩]).1 unstopped ⟨0⟩ _ refused
  · refine (lower_truthful valid_trailGraph [⟨1⟩]).2.1.mpr fun n hn => ?_
    rw [left, List.mem_singleton] at hn
    have itself : trailGraph.DependsOn ⟨1⟩ ⟨1⟩ := by
      rw [Graph.DependsOn]
      decide +kernel
    exact hn ▸ .single itself

/-- A second request for `n0` is refused with an `E0103` that names `n0`, which is on no cycle: the
first one left it on the path. -/
theorem falseCycle_trailGraph :
    trailGraph.Valid ∧
    ∃ fault, (trailGraph.lower ⟨0⟩ (trailGraph.afterRequests [⟨0⟩])).2 = .error fault ∧
      fault.shown = some "E0103" ∧ fault.diagnostic.node = some ⟨0⟩ ∧
      ¬TransGen trailGraph.DependsOn ⟨0⟩ ⟨0⟩ := by
  have refused : (trailGraph.lower ⟨0⟩ (trailGraph.afterRequests [⟨0⟩])).2 =
      .error (.cycle ⟨0⟩ [⟨0⟩, ⟨1⟩]) := by decide +kernel
  have unused : ∀ a : NodeId, ¬trailGraph.DependsOn a ⟨0⟩ := by
    intro a h
    cases stored : trailGraph.node? a with
    | none =>
      rw [Graph.DependsOn, Graph.inputsOf, stored] at h
      cases h
    | some node =>
      have inputs : ∀ node ∈ trailGraph.nodes, (⟨0⟩ : NodeId) ∉ node.inputs := by decide +kernel
      exact inputs node (Graph.mem_of_node? stored) ((Graph.dependsOn_iff stored).mp h)
  refine ⟨valid_trailGraph, _, refused, Fault.shown_eq _, Fault.node_diagnostic _, fun cycle => ?_⟩
  obtain ⟨a, -, last⟩ := TransGen.tail'_iff.mp cycle
  exact unused a last

end NodeGraph
