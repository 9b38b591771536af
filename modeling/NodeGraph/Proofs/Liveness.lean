import NodeGraph.Proofs.Order
import NodeGraph.Proofs.Worklist

/-!
# Live nodes are the nodes that are lowered

Two traversals find out what an output depends on: the worklist of `Graph.live`, which never stops
at a cycle, and the requests of `Graph.lowerOutputs`, which follow one output after the other. Both
find the nodes of `Graph.Live`, the first one always (`Graph.mem_live_iff`), the second one whenever
a graph compiles (`Graph.mem_order_iff_live`).

So a node that no output depends on leaves nothing in what a graph compiles to, and every live node
leaves one statement in it, unless it stands for an operand that is there already
(`compile_liveness`). The primitives and the stand-in values that are told of a body are read off
its statements (`Graph.compile_lists`).
-/

namespace NodeGraph

open Relation

namespace Graph

/-! ### Lowered nodes -/

/-- The tree of a node has nothing but what the node depends on. -/
theorem reflTransGen_of_expandWithin {g : Graph} {depth : Nat} {id i : NodeId} {l : List NodeId}
    (h : g.expandWithin depth id = some l) (hi : i ∈ l) : ReflTransGen g.DependsOn id i := by
  induction depth generalizing id l with
  | zero => cases h
  | succ depth ih =>
    obtain ⟨d, node, parts, hd, stored, inputs, rfl⟩ := foldWithin_eq_some h
    cases hd
    rcases List.mem_append.mp hi with hi | hi
    · obtain ⟨part, hpart, hi⟩ := List.mem_flatten.mp hi
      obtain ⟨input, hinput, hexpand⟩ := forall₂_mem_right inputs hpart
      exact .head ((dependsOn_iff stored).mpr hinput) (ih hexpand hi)
    · rw [List.mem_singleton.mp hi, id_of_node? stored]

/-- When the outputs are lowered, the nodes with a symbol are the live ones. -/
theorem mem_order_iff_live {g : Graph} {outputs : List Symbol} (h : g.lowerOutputs.2 = .ok outputs)
    (id : NodeId) : id ∈ g.lowerOutputs.1.order ↔ g.Live id := by
  have request := g.lowerOutputs_request
  constructor
  · intro hid
    obtain ⟨l, hl⟩ := exists_expansion h
    obtain ⟨parts, hparts, rfl⟩ := Option.map_eq_some_iff.mp (hl _ le_rfl)
    rw [Context.order_lowerOutputs h (hl _ le_rfl), List.mem_eraseDups, List.mem_flatten] at hid
    obtain ⟨part, hpart, hid⟩ := hid
    obtain ⟨start, hstart, hexpand⟩ := forall₂_mem_right (mapM_eq_some_iff.mp hparts) hpart
    obtain ⟨output, hout, rfl⟩ := List.mem_map.mp hstart
    exact ⟨output, hout, reflTransGen_of_expandWithin hexpand hid⟩
  · intro live
    have start : Context.Closed g .empty := fun _ hid => nomatch hid
    refine live.mem_of_closed (fun output hout => ?_)
      (start.steps Context.tracked_empty request.steps)
    have bound := (request.binds outputs h).of_mem_ids (List.mem_map_of_mem hout)
    exact (Context.mem_order_iff _ _).mpr bound

/-- So they are the nodes that the worklist finds, in another order. -/
theorem order_perm_live {g : Graph} {outputs : List Symbol}
    (h : g.lowerOutputs.2 = .ok outputs) : g.lowerOutputs.1.order.Perm g.live := by
  have numbered := Context.Numbered.of_steps g.lowerOutputs_request.steps
  have nodup : g.lowerOutputs.1.order.Nodup := List.nodup_reverse.mpr numbered.sound.keyed
  rw [List.perm_ext_iff_of_nodup nodup g.nodup_live]
  exact fun id => (mem_order_iff_live h id).trans (g.mem_live_iff id).symm

/-- The live ids that need a statement are those of the live nodes that do. -/
theorem Valid.live_filter_emits {g : Graph} (valid : g.Valid) :
    (g.live.filter g.emits).Perm
      ((g.nodes.filter fun node => g.live.contains node.id && node.emits).map (·.id)) := by
  have distinct : ((g.nodes.filter fun node => g.live.contains node.id && node.emits).map
      (·.id)).Nodup :=
    valid.distinct.sublist (List.filter_sublist.map _)
  rw [List.perm_ext_iff_of_nodup (g.nodup_live.filter _) distinct]
  intro id
  simp only [List.mem_filter, List.mem_map, Bool.and_eq_true, List.contains_iff_mem]
  constructor
  · rintro ⟨live, emits⟩
    unfold Graph.emits at emits
    cases stored : g.node? id with
    | none => rw [stored] at emits; cases emits
    | some node =>
      rw [stored] at emits
      obtain rfl := id_of_node? stored
      exact ⟨node, ⟨mem_of_node? stored, live, emits⟩, rfl⟩
  · rintro ⟨node, ⟨stored, live, emits⟩, rfl⟩
    exact ⟨live, by rw [Graph.emits, valid.node?_eq_some stored]; exact emits⟩

end Graph

/-! ### What is told of a body -/

namespace Primitive

theorem mem_all (p : Primitive) : p ∈ all := by
  cases p <;> decide

@[simp] theorem mem_sorted {p : Primitive} {used : List Primitive} :
    p ∈ sorted used ↔ p ∈ used := by
  simp [sorted, mem_all]

/-- Only what is in a list matters, not where or how often. -/
theorem sorted_congr {used used' : List Primitive} (h : ∀ p, p ∈ used ↔ p ∈ used') :
    sorted used = sorted used' :=
  List.filter_congr fun p _ => by simp [h p]

end Primitive

/-- The primitives and stand-in values of a context are those of its statements. -/
structure Context.Listed (c : Context) : Prop where
  used : c.used = usedPrimitives c.statements
  placeholders : c.placeholders = NodeGraph.placeholders c.statements

theorem Context.Listed.settle {c : Context} (h : c.Listed) (node : Node) (args : List Symbol) :
    (c.settle node args).1.Listed := by
  rcases Lowered.cases (node.lowered args) with ⟨s, hs, -⟩ | ⟨expr, unhandled, hs⟩
  · rw [settle_of_standsFor hs]
    exact ⟨h.used, h.placeholders⟩
  · obtain ⟨-, wrote⟩ := settle_of_statement (c := c) hs
    constructor
    · rw [wrote.used, wrote.statements, usedPrimitives, List.filterMap_append]
      cases hp : expr.primitive? with
      | none => simp [call, hp, h.used, usedPrimitives]
      | some p =>
        refine Primitive.sorted_congr fun q => ?_
        simp [h.used, usedPrimitives, hp, or_comm]
    · rw [wrote.placeholders, wrote.statements, h.placeholders, NodeGraph.placeholders,
        NodeGraph.placeholders, List.filterMap_append]
      cases unhandled <;> rfl

theorem Context.listed_of_steps {g : Graph} {c : Context} (s : g.Steps .empty c) : c.Listed :=
  s.invariant tracked_empty ⟨rfl, rfl⟩ (fun _ _ _ h => ⟨h.used, h.placeholders⟩)
    fun _ node args _ _ _ h => h.settle node args

/-- What a graph compiles to tells the primitives and stand-in values of its body. -/
theorem Graph.compile_lists {g : Graph} {p : Compiled} (compiled : g.compile = .ok p) :
    p.used = usedPrimitives p.body ∧ p.placeholders = NodeGraph.placeholders p.body := by
  obtain ⟨-, -, hbody, hused, hplaceholders⟩ := compile_eq_ok compiled
  have listed := Context.listed_of_steps g.lowerOutputs_request.steps
  exact ⟨by rw [hused, hbody, listed.used], by rw [hplaceholders, hbody, listed.placeholders]⟩

/-- A primitive is told exactly when a statement calls it. -/
theorem Graph.mem_used_iff {g : Graph} {p : Compiled} (compiled : g.compile = .ok p)
    {q : Primitive} : q ∈ p.used ↔ ∃ s ∈ p.body, s.expr.primitive? = some q := by
  rw [(compile_lists compiled).1, usedPrimitives, Primitive.mem_sorted, List.mem_filterMap]

/-- A stand-in value is told exactly when a statement has it. -/
theorem Graph.mem_placeholders_iff {g : Graph} {p : Compiled} (compiled : g.compile = .ok p)
    {q : Placeholder} :
    q ∈ p.placeholders ↔ ∃ s ∈ p.body, s.node = q.node ∧ s.unhandled = some q.detail := by
  rw [(compile_lists compiled).2, NodeGraph.placeholders, List.mem_filterMap]
  refine exists_congr fun s => and_congr_right fun _ => ?_
  obtain ⟨node, detail⟩ := q
  cases s.unhandled <;> simp [eq_comm]

/-! ### Compiled graphs -/

/-- The nodes of the statements are the live ones that need a statement, each once. -/
theorem Graph.nodes_body_perm {g : Graph} {p : Compiled} (compiled : g.compile = .ok p) :
    (p.body.map (·.node)).Perm (g.live.filter g.emits) := by
  obtain ⟨-, hout, hbody, -, -⟩ := compile_eq_ok compiled
  have numbered := Context.Numbered.of_steps g.lowerOutputs_request.steps
  rw [hbody, numbered.nodes]
  exact (order_perm_live hout).filter _

/-- A statement is that of a live node, and follows from the symbols of its inputs. -/
theorem Graph.follows_of_mem_body {g : Graph} {p : Compiled} (compiled : g.compile = .ok p)
    {s : Statement} (hs : s ∈ p.body) :
    ∃ node args, g.Live node.id ∧ s.Follows g g.lowerOutputs.1.symbols node args := by
  obtain ⟨-, -, hbody, -, -⟩ := compile_eq_ok compiled
  have sound := g.sound_lowerOutputs
  obtain ⟨k, hk⟩ := List.mem_iff_getElem?.mp (hbody ▸ hs)
  obtain ⟨node, args, follows⟩ := sound.follows hk
  have found := (nodes_body_perm compiled).mem_iff.mp (List.mem_map_of_mem hs)
  have live := (g.mem_live_iff s.node).mp (List.mem_of_mem_filter found)
  exact ⟨node, args, id_of_node? follows.stored ▸ live, follows⟩

/-- A statement of a stored node follows from the symbols of the inputs of this node. -/
theorem Graph.follows_of_node {g : Graph} {p : Compiled} (compiled : g.compile = .ok p)
    {s : Statement} (hs : s ∈ p.body) {node : Node} (stored : node ∈ g.nodes)
    (same : s.node = node.id) :
    ∃ args, g.Live node.id ∧ s.Follows g g.lowerOutputs.1.symbols node args := by
  have valid := g.check_eq_ok_iff.mp (compile_eq_ok compiled).1
  obtain ⟨found, args, live, follows⟩ := follows_of_mem_body compiled hs
  obtain rfl : node = found := by
    rw [← Option.some.injEq, ← valid.node?_eq_some stored, ← same, follows.stored]
  exact ⟨args, live, follows⟩

/-- A live node that needs a statement has one. -/
theorem Graph.exists_mem_body {g : Graph} {p : Compiled} (compiled : g.compile = .ok p)
    {node : Node} (stored : node ∈ g.nodes) (live : g.Live node.id) (emits : node.emits = true) :
    ∃ s ∈ p.body, s.node = node.id := by
  have valid := g.check_eq_ok_iff.mp (compile_eq_ok compiled).1
  have found : node.id ∈ g.live.filter g.emits := by
    refine List.mem_filter.mpr ⟨(g.mem_live_iff _).mpr live, ?_⟩
    rw [Graph.emits, valid.node?_eq_some stored]
    exact emits
  exact List.mem_map.mp ((nodes_body_perm compiled).mem_iff.mpr found)

/-- **Lowered is live.** Let a graph compile. The nodes that have a symbol in the end are those that
the worklist finds. A node that it does not find has no statement, no primitive is told but for the
statement of a node that it finds, and no stand-in value but for such a node. There are as many
statements as it finds nodes that are neither parameters nor outputs with an input, and as many
texts; and every text is that of the statement of a node that it finds. -/
theorem compile_liveness {g : Graph} {p : Compiled} (compiled : g.compile = .ok p) :
    (∀ id, (∃ s, g.lowerOutputs.1.symbol? id = some s) ↔ id ∈ g.live) ∧
    (∀ s ∈ p.body, s.node ∈ g.live) ∧
    (∀ q ∈ p.used, ∃ s ∈ p.body, s.node ∈ g.live ∧ s.expr.primitive? = some q) ∧
    (∀ q ∈ p.placeholders, q.node ∈ g.live) ∧
    p.body.length = (g.nodes.filter fun node => g.live.contains node.id && node.emits).length ∧
    (statementTexts p.body).length =
      (g.nodes.filter fun node => g.live.contains node.id && node.emits).length ∧
    ∀ (k : Nat) (text : String), (statementTexts p.body)[k]? = some text →
      ∃ s ∈ p.body, s.node ∈ g.live ∧ text = assignmentText k s.expr s.unhandled := by
  obtain ⟨checked, hout, -, -, -⟩ := Graph.compile_eq_ok compiled
  have valid := g.check_eq_ok_iff.mp checked
  have body := Graph.nodes_body_perm compiled
  have live s (hs : s ∈ p.body) : s.node ∈ g.live :=
    List.mem_of_mem_filter (body.mem_iff.mp (List.mem_map_of_mem hs))
  have count : p.body.length =
      (g.nodes.filter fun node => g.live.contains node.id && node.emits).length := by
    rw [← List.length_map (·.node), body.length_eq, valid.live_filter_emits.length_eq,
      List.length_map]
  refine ⟨fun id => ?_, live, fun q hq => ?_, fun q hq => ?_, count, ?_, fun k text hk => ?_⟩
  · rw [← Context.mem_order_iff, (Graph.order_perm_live hout).mem_iff]
  · obtain ⟨s, hs, calls⟩ := (Graph.mem_used_iff compiled).mp hq
    exact ⟨s, hs, live s hs, calls⟩
  · obtain ⟨s, hs, same, -⟩ := (Graph.mem_placeholders_iff compiled).mp hq
    exact same ▸ live s hs
  · rw [statementTexts, List.length_map, count]
  · rw [Graph.getElem?_texts compiled, Option.map_eq_some_iff] at hk
    obtain ⟨s, hs, rfl⟩ := hk
    have mem := List.mem_of_getElem? hs
    exact ⟨s, mem, live s mem, rfl⟩

/-- In `sharedGraph` nothing takes `n6`, and `n9` is a parameter; the outputs `n2` and `n8` have
inputs. -/
theorem compile_liveness_sharedGraph :
    ∃ p, sharedGraph.compile = .ok p ∧ sharedGraph.live = [2, 7, 4, 9, 8, 3, 5].map NodeId.mk ∧
      sharedGraph.lowerOutputs.1.symbol? ⟨6⟩ = none ∧ p.body.length = 4 := by
  obtain ⟨p, hp⟩ : ∃ p, sharedGraph.compile = .ok p := ⟨_, rfl⟩
  have live : sharedGraph.live = [2, 7, 4, 9, 8, 3, 5].map NodeId.mk := by decide +kernel
  obtain ⟨symbols, -, -, -, count, -⟩ := compile_liveness hp
  refine ⟨p, hp, live, ?_, ?_⟩
  · by_contra bound
    have found := (symbols ⟨6⟩).mp (Option.ne_none_iff_exists'.mp bound)
    rw [live] at found
    exact absurd found (by decide)
  · rw [count, live]
    decide +kernel

end NodeGraph
