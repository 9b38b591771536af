import Mathlib.Data.Set.Function
import NodeGraph.Proofs.Cycles

/-!
# Renaming

Ids only tie nodes together. `Graph.Renamed` says that a graph has the live nodes of another one
under new ids: the outputs are the same in the same order, and every live node is there with the
same domain and kind and with its inputs renamed. The new ids must tell the live nodes apart; what
else is stored in either graph, and where, does not matter.

Lowering one graph and lowering the other go side by side (`Graph.Renamed.lowerWithin`): from a
context and its renaming they reach a context and its renaming, with one answer or with one fault at
corresponding nodes. A statement names its node nowhere in its text, so both graphs have one source
(`compile_renamed`).
-/

namespace NodeGraph

/-! ### Renaming the parts of a run -/

section

variable (r : NodeId → NodeId)

/-- A node under new ids. -/
def Node.rename (node : Node) : Node :=
  { node with id := r node.id, inputs := node.inputs.map r }

/-- A statement under new ids. -/
def Statement.rename (s : Statement) : Statement := { s with node := r s.node }

/-- A placeholder under new ids. -/
def Placeholder.rename (p : Placeholder) : Placeholder := { p with node := r p.node }

/-- A fault under new ids. -/
def Fault.rename : Fault → Fault
  | .duplicateId id first again => .duplicateId (r id) first again
  | .danglingInput node missing => .danglingInput (r node) (r missing)
  | .cycle id loop => .cycle (r id) (loop.map r)
  | .tooDeep id => .tooDeep (r id)
  | .unknownNode id => .unknownNode (r id)

/-- A context under new ids. -/
def Context.rename (c : Context) : Context :=
  { c with
    symbols := c.symbols.map (Prod.map r id)
    statements := c.statements.map (Statement.rename r)
    placeholders := c.placeholders.map (Placeholder.rename r)
    path := c.path.map r
    onPath := c.onPath.map r }

/-- The rule of a node does not look at ids. -/
@[simp] theorem Node.lowered_rename {α : Type} (node : Node) (args : List α) :
    (node.rename r).lowered args = node.lowered args := rfl

/-- The text of a statement does not name its node. -/
@[simp] theorem statementTexts_rename (body : List Statement) :
    statementTexts (body.map (Statement.rename r)) = statementTexts body := by
  rw [statementTexts, List.map_map]
  rfl

theorem Context.call_rename (c : Context) (p : Option Primitive) :
    (c.rename r).call p = (c.call p).rename r := by
  cases p <;> rfl

/-- What a node becomes is settled under new ids as under the old ones. -/
theorem Context.settle_rename (c : Context) (node : Node) (args : List Symbol) :
    (c.rename r).settle (node.rename r) args =
      ((c.settle node args).1.rename r, (c.settle node args).2) := by
  unfold settle
  rw [Node.lowered_rename]
  cases node.lowered args with
  | parameter name => rfl
  | same s => rfl
  | assign expr =>
    simp only [call_rename]
    simp [Context.rename, write, bind, Node.rename, Statement.rename]
  | standIn expr detail => simp [Context.rename, write, report, bind, Node.rename, Statement.rename,
      Placeholder.rename]

end

/-! ### Ids that are told apart

On a set where `r` tells ids apart, whatever lowering asks of the ids of a context has the same
answer for the renamed ones. -/

section

variable {r : NodeId → NodeId} {s : Set NodeId} (inj : Set.InjOn r s)
include inj

theorem lookup_rename {table : List (NodeId × Symbol)} (keys : ∀ entry ∈ table, entry.1 ∈ s)
    {i : NodeId} (hi : i ∈ s) : (table.map (Prod.map r id)).lookup (r i) = table.lookup i := by
  induction table with
  | nil => rfl
  | cons entry table ih =>
    have head := keys entry List.mem_cons_self
    have tail := ih fun e he => keys e (List.mem_cons_of_mem _ he)
    rw [List.map_cons, Prod.map, List.lookup_cons, List.lookup_cons, tail]
    by_cases h : i = entry.1
    · simp [h]
    · have h' : r i ≠ r entry.1 := fun e => h (inj hi head e)
      rw [beq_false_of_ne h, beq_false_of_ne h']

theorem mem_map_rename {ids : List NodeId} (within : ∀ j ∈ ids, j ∈ s) {i : NodeId} (hi : i ∈ s) :
    r i ∈ ids.map r ↔ i ∈ ids := by
  constructor
  · intro h
    obtain ⟨j, hj, e⟩ := List.mem_map.mp h
    exact inj (within j hj) hi e ▸ hj
  · exact List.mem_map_of_mem

theorem idxOf?_rename {ids : List NodeId} (within : ∀ j ∈ ids, j ∈ s) {i : NodeId} (hi : i ∈ s) :
    (ids.map r).idxOf? (r i) = ids.idxOf? i := by
  induction ids with
  | nil => rfl
  | cons j ids ih =>
    have head := within j List.mem_cons_self
    have tail := ih fun k hk => within k (List.mem_cons_of_mem _ hk)
    rw [List.map_cons, List.idxOf?_cons, List.idxOf?_cons, tail]
    by_cases h : j = i
    · simp [h]
    · have h' : r j ≠ r i := fun e => h (inj head hi e)
      rw [beq_false_of_ne h, beq_false_of_ne h']

theorem filter_rename {ids : List NodeId} (within : ∀ j ∈ ids, j ∈ s) {i : NodeId} (hi : i ∈ s) :
    (ids.map r).filter (· != r i) = (ids.filter (· != i)).map r := by
  rw [List.filter_map]
  congr 1
  refine List.filter_congr fun j hj => ?_
  by_cases h : j = i
  · simp [h]
  · have h' : r j ≠ r i := fun e => h (inj (within j hj) hi e)
    rw [Function.comp, bne_iff_ne.mpr h, bne_iff_ne.mpr h']

end

namespace Context

/-- All ids of a context that lowering asks for are in a set. -/
structure Within (s : Set NodeId) (c : Context) : Prop where
  keys : ∀ entry ∈ c.symbols, entry.1 ∈ s
  path : ∀ i ∈ c.path, i ∈ s
  onPath : ∀ i ∈ c.onPath, i ∈ s

theorem within_empty (s : Set NodeId) : Within s .empty :=
  ⟨fun _ h => (nomatch h), fun _ h => (nomatch h), fun _ h => (nomatch h)⟩

theorem Within.enter {s : Set NodeId} {c : Context} (h : c.Within s) {id : NodeId} (hid : id ∈ s) :
    (c.enter id).Within s :=
  ⟨h.keys, List.forall_mem_cons.mpr ⟨hid, h.path⟩, List.forall_mem_cons.mpr ⟨hid, h.onPath⟩⟩

theorem Within.leave {s : Set NodeId} {c : Context} (h : c.Within s) (id : NodeId) :
    (c.leave id).Within s :=
  ⟨h.keys, fun i hi => h.path i (List.mem_of_mem_tail hi),
    fun i hi => h.onPath i (List.mem_of_mem_filter hi)⟩

theorem Within.settle {s : Set NodeId} {c : Context} (h : c.Within s) {node : Node}
    (hid : node.id ∈ s) (args : List Symbol) : (c.settle node args).1.Within s := by
  refine ⟨?_, ?_, ?_⟩
  · rw [symbols_settle]
    exact List.forall_mem_cons.mpr ⟨hid, h.keys⟩
  · rw [path_settle]
    exact h.path
  · rw [onPath_settle]
    exact h.onPath

section

variable {r : NodeId → NodeId} {s : Set NodeId} {c : Context} {id : NodeId}

@[simp] theorem rename_enter (c : Context) :
    (c.enter id).rename r = (c.rename r).enter (r id) := rfl

theorem rename_leave (inj : Set.InjOn r s) (h : c.Within s) (hid : id ∈ s) :
    (c.leave id).rename r = (c.rename r).leave (r id) := by
  unfold Context.rename Context.leave
  rw [filter_rename inj h.onPath hid, List.map_tail]

theorem pathFrom_rename (inj : Set.InjOn r s) (h : c.Within s) (hid : id ∈ s) :
    (c.rename r).pathFrom (r id) = (c.pathFrom id).map r := by
  have outermost : (c.rename r).path.reverse = c.path.reverse.map r := List.map_reverse.symm
  have within : ∀ j ∈ c.path.reverse, j ∈ s := fun j hj => h.path j (List.mem_reverse.mp hj)
  simp only [pathFrom, outermost, idxOf?_rename inj within hid, List.map_drop]

/-- What is known of a node without looking into it, under new ids. -/
theorem known?_rename (inj : Set.InjOn r s) (h : c.Within s) (hid : id ∈ s) :
    (c.rename r).known? (r id) = (c.known? id).map (Except.mapError (Fault.rename r)) := by
  have symbol : (c.rename r).symbol? (r id) = c.symbol? id := lookup_rename inj h.keys hid
  have on : r id ∈ (c.rename r).onPath ↔ id ∈ c.onPath := mem_map_rename inj h.onPath hid
  unfold known?
  rw [symbol, pathFrom_rename inj h hid]
  cases c.symbol? id with
  | some t => rfl
  | none =>
    by_cases hon : id ∈ c.onPath
    · simp [hon, on.mpr hon, Except.mapError, Fault.rename]
    · simp [hon, mt on.mp hon]

end

end Context

/-! ### Two graphs side by side -/

/-- The live nodes of a graph are in another one under new ids: its outputs are those of the other
one in the same order, and each live node has its domain and kind there, and its inputs renamed. -/
structure Graph.Renamed (r : NodeId → NodeId) (g h : Graph) : Prop where
  injective : Set.InjOn r {id | g.Live id}
  outputs : h.outputs.map (·.id) = g.outputs.map fun output => r output.id
  nodes : ∀ node ∈ g.nodes, g.Live node.id → node.rename r ∈ h.nodes

namespace Graph

variable {r : NodeId → NodeId} {g h : Graph}

/-- A live node of a valid graph is found in it, and under its new id in the other graph. -/
theorem Renamed.node? (m : g.Renamed r h) (validG : g.Valid) (validH : h.Valid) {id : NodeId}
    (live : g.Live id) :
    ∃ node, g.node? id = some node ∧ h.node? (r id) = some (node.rename r) := by
  obtain ⟨output, hout, reach⟩ := live
  have start : output.id ∈ g.ids := List.mem_map_of_mem (List.mem_of_mem_filter hout)
  obtain ⟨node, stored⟩ :=
    Option.ne_none_iff_exists'.mp (node?_ne_none (validG.mem_ids start reach))
  obtain rfl := id_of_node? stored
  have image := m.nodes node (mem_of_node? stored) ⟨output, hout, reach⟩
  exact ⟨node, stored, validH.node?_eq_some image⟩

/-- Two requests go side by side: the context stays among live ids, and the renamed request reaches
the renamed context with the same answer, or the renamed fault. -/
structure SideBySide {α : Type} (r : NodeId → NodeId) (g : Graph)
    (run run' : Context × Except Fault α) : Prop where
  within : run.1.Within {id | g.Live id}
  same : run' = (run.1.rename r, run.2.mapError (Fault.rename r))

section

variable {lower lower' : NodeId → Context → Context × Except Fault Symbol}

/-- Requests one after the other go side by side, when each of them does. -/
theorem lowerEach_sideBySide
    (each : ∀ id c, g.Live id → c.Within {id | g.Live id} →
      SideBySide r g (lower id c) (lower' (r id) (c.rename r)))
    (ids : List NodeId) :
    ∀ c : Context, (∀ id ∈ ids, g.Live id) → c.Within {id | g.Live id} →
      SideBySide r g (lowerEach lower ids c) (lowerEach lower' (ids.map r) (c.rename r)) := by
  induction ids with
  | nil => exact fun c _ within => ⟨within, rfl⟩
  | cons id rest ih =>
    intro c live within
    have first := each id c (live id List.mem_cons_self) within
    rw [List.map_cons]
    unfold lowerEach
    rw [first.same]
    have within₁ := first.within
    generalize lower id c = run at within₁ ⊢
    obtain ⟨c₁, fault | s⟩ := run
    · exact ⟨within₁, rfl⟩
    · have others := ih c₁ (fun i hi => live i (List.mem_cons_of_mem _ hi)) within₁
      have within₂ := others.within
      simp only [Except.mapError]
      rw [others.same]
      generalize lowerEach lower rest c₁ = run at within₂ ⊢
      obtain ⟨c₂, fault | ss⟩ := run
      · exact ⟨within₂, rfl⟩
      · exact ⟨within₂, rfl⟩

end

/-- **Lowering does not see ids**: a request for a live node goes side by side with the request for
its image. -/
theorem Renamed.lowerWithin (m : g.Renamed r h) (validG : g.Valid) (validH : h.Valid) (room : Nat) :
    ∀ id c, g.Live id → c.Within {id | g.Live id} →
      SideBySide r g (g.lowerWithin room id c) (h.lowerWithin room (r id) (c.rename r)) := by
  induction room with
  | zero =>
    intro id c live within
    refine ⟨within, ?_⟩
    unfold Graph.lowerWithin
    rw [Context.known?_rename m.injective within live]
    cases c.known? id <;> rfl
  | succ room ih =>
    intro id c live within
    unfold Graph.lowerWithin
    rw [Context.known?_rename m.injective within live]
    cases c.known? id with
    | some answer => exact ⟨within, rfl⟩
    | none =>
      obtain ⟨node, stored, stored'⟩ := m.node? validG validH live
      have inputs := lowerEach_sideBySide ih node.inputs (c.enter id)
        (fun i hi => live.input stored hi) (within.enter live)
      have inputs' : lowerEach (h.lowerWithin room) (node.rename r).inputs
          ((c.rename r).enter (r id)) = _ := inputs.same
      rw [stored, stored']
      simp only [Option.map_none, inputs']
      have within₁ := inputs.within
      generalize lowerEach (g.lowerWithin room) node.inputs (c.enter id) = run at within₁ ⊢
      obtain ⟨c₁, fault | args⟩ := run
      · exact ⟨within₁, rfl⟩
      · have live' : g.Live node.id := id_of_node? stored ▸ live
        refine ⟨(within₁.leave id).settle live' args, ?_⟩
        simp only [Except.mapError]
        rw [← Context.rename_leave m.injective within₁ live, Context.settle_rename]

theorem Renamed.lowerOutputs (m : g.Renamed r h) (validG : g.Valid) (validH : h.Valid) :
    SideBySide r g g.lowerOutputs h.lowerOutputs := by
  have outputs : h.outputs.map (·.id) = (g.outputs.map (·.id)).map r := by
    rw [m.outputs, List.map_map]
    rfl
  have live : ∀ id ∈ g.outputs.map (·.id), g.Live id := by
    intro id hid
    obtain ⟨output, hout, rfl⟩ := List.mem_map.mp hid
    exact live_output hout
  unfold Graph.lowerOutputs
  rw [outputs]
  refine lowerEach_sideBySide (fun id c live within => ?_) _ .empty live (Context.within_empty _)
  have room : (c.rename r).path.length = c.path.length := List.length_map _
  unfold Graph.lower
  rw [room]
  exact m.lowerWithin validG validH _ id c live within

end Graph

/-! ### The node of a fault -/

/-- The node that a fault is about. -/
def Fault.node : Fault → NodeId
  | .duplicateId id _ _ => id
  | .danglingInput node _ => node
  | .cycle id _ => id
  | .tooDeep id => id
  | .unknownNode id => id

theorem Diagnostic.node_foldl_withCause {α : Type} (message : α → String) (node : α → Option NodeId)
    (l : List α) (d : Diagnostic) :
    (l.foldl (fun d a => d.withCause (message a) (node a)) d).node = d.node := by
  induction l generalizing d with
  | nil => rfl
  | cons a l ih => exact ih _

/-- The diagnostic of a fault is about the node of the fault. -/
theorem Fault.node_diagnostic (fault : Fault) : fault.diagnostic.node = some fault.node := by
  cases fault with
  | cycle id loop => exact Diagnostic.node_foldl_withCause _ _ loop _
  | _ => rfl

theorem Fault.code_rename (r : NodeId → NodeId) (fault : Fault) :
    (fault.rename r).code = fault.code := by
  cases fault <;> rfl

theorem Fault.node_rename (r : NodeId → NodeId) (fault : Fault) :
    (fault.rename r).node = r fault.node := by
  cases fault <;> rfl

/-! ### The outcome -/

/-- **Only the live part shows, and its ids do not.** Let two graphs be valid and the second one
have the live nodes of the first under new ids. Then either both compile, to one source whatever the
options, with the same outputs and primitives and with corresponding placeholders; or both fail,
with one code and at corresponding nodes. -/
theorem compile_renamed {r : NodeId → NodeId} {g h : Graph} (checkedG : g.check = .ok ())
    (checkedH : h.check = .ok ()) (renamed : g.Renamed r h) :
    (∃ p q, g.compile = .ok p ∧ h.compile = .ok q ∧
      (∀ options, q.source options = p.source options) ∧ q.outputs = p.outputs ∧ q.used = p.used ∧
      q.placeholders = p.placeholders.map (Placeholder.rename r)) ∨
    ∃ e f, g.compile = .error e ∧ h.compile = .error f ∧
      f.diagnostic.code = e.diagnostic.code ∧ f.diagnostic.node = e.diagnostic.node.map r := by
  have lowered := renamed.lowerOutputs (g.check_eq_ok_iff.mp checkedG)
    (h.check_eq_ok_iff.mp checkedH)
  unfold Graph.compile
  rw [checkedG, checkedH, lowered.same]
  generalize g.lowerOutputs = run
  obtain ⟨c, fault | outputs⟩ := run
  · refine .inr ⟨fault, fault.rename r, rfl, rfl, ?_, ?_⟩
    · rw [Fault.code_diagnostic, Fault.code_diagnostic, Fault.code_rename]
    · rw [Fault.node_diagnostic, Fault.node_diagnostic, Fault.node_rename, Option.map_some]
  · refine .inl ⟨_, _, rfl, rfl, fun options => ?_, rfl, rfl, rfl⟩
    unfold Compiled.source Compiled.lines
    simp only [Context.rename, statementTexts_rename]
    rfl

/-- `sharedGraph` in another order, with each id taken from `100`, and with a node that takes itself
in place of the one that nothing takes. -/
def renumberedGraph : Graph :=
  let node (id : UInt32) (kind : Kind) (inputs : List UInt32) : Node :=
    ⟨⟨id⟩, .control, kind, inputs.map NodeId.mk⟩
  ⟨[node 0 (.math "abs" []) [0], node 98 .valueOutput [93], node 97 (.math "frob" []) [95, 93],
    node 92 .audioOutput [97], node 95 (.wave "sin" (.ofNat 1)) [98],
    node 93 (.math "add" []) [96, 91, 96], node 96 (.math "mul" []) [91, 91],
    node 91 (.input "time") []], ⟨99⟩⟩

/-- Both graphs compile to one source, and `n97` is to the second what `n3` is to the first. -/
theorem compile_renamed_sharedGraph :
    sharedGraph.check = .ok () ∧ renumberedGraph.check = .ok () ∧
      sharedGraph.Renamed (fun id => ⟨100 - id.val⟩) renumberedGraph ∧
      ∃ p q, sharedGraph.compile = .ok p ∧ renumberedGraph.compile = .ok q ∧
        (∀ options, q.source options = p.source options) ∧
        p.placeholders = [⟨⟨3⟩, "math op: frob"⟩] ∧ q.placeholders = [⟨⟨97⟩, "math op: frob"⟩] := by
  have checkedG : sharedGraph.check = .ok () := by decide +kernel
  have checkedH : renumberedGraph.check = .ok () := by decide +kernel
  have renamed : sharedGraph.Renamed (fun id => ⟨100 - id.val⟩) renumberedGraph := by
    refine ⟨fun a _ b _ e => ?_, by decide +kernel, fun node stored live => ?_⟩
    · obtain ⟨a⟩ := a
      obtain ⟨b⟩ := b
      simpa using e
    · have alive : node.id ∈ [2, 9, 4, 7, 5, 3, 8].map NodeId.mk :=
        live.mem_of_closed (by decide +kernel) (by decide +kernel)
      have images : ∀ node ∈ sharedGraph.nodes, node.id ∈ [2, 9, 4, 7, 5, 3, 8].map NodeId.mk →
          node.rename (fun id => ⟨100 - id.val⟩) ∈ renumberedGraph.nodes := by decide +kernel
      exact images node stored alive
  obtain ⟨p, hp⟩ : ∃ p, sharedGraph.compile = .ok p := ⟨_, rfl⟩
  have unhandled : p.placeholders = [⟨⟨3⟩, "math op: frob"⟩] := by
    have found : sharedGraph.compile.toOption.map (·.placeholders) =
        some [⟨⟨3⟩, "math op: frob"⟩] := by decide +kernel
    simpa [hp, Except.toOption] using found
  obtain ⟨p', q, hp', hq, source, -, -, corresponding⟩ | ⟨e, f, he, -⟩ :=
    compile_renamed checkedG checkedH renamed
  · cases hp.symm.trans hp'
    refine ⟨checkedG, checkedH, renamed, p, q, hp, hq, source, unhandled, ?_⟩
    rw [corresponding, unhandled]
    rfl
  · cases hp.symm.trans he

end NodeGraph
