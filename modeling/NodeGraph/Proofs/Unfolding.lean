import NodeGraph.Proofs.SingleAssignment

/-!
# Unfolding a graph

A graph stands for trees: the tree of a node has the trees of its inputs as its branches, and a node
that is shared occurs in it again and again. `Graph.foldWithin` computes a value for a node over its
tree, from the values of its inputs and without remembering any of them; the depth bounds the height
of the tree, so that a node on a cycle, or above one, has no value at any depth.

A node that lowering gave a symbol has a value at the depth of the length of the table, and so at
every greater one (`Graph.Steps.exists_foldWithin`): its inputs have their symbols from before it.
-/

namespace NodeGraph

variable {β : Type*} {g : Graph} {rule : Node → List β → β}

/-- Compute a value for a node from the values of its inputs, each computed anew wherever it is met;
none when the tree of the node is higher than `depth` or has an id that is not stored. -/
def Graph.foldWithin (g : Graph) (rule : Node → List β → β) : (depth : Nat) → NodeId → Option β
  | 0, _ => none
  | depth + 1, id =>
    match g.node? id with
    | none => none
    | some node => (node.inputs.mapM (g.foldWithin rule depth)).map (rule node)

theorem mapM_eq_some_iff {α : Type*} {f : α → Option β} {l : List α} {vs : List β} :
    l.mapM f = some vs ↔ List.Forall₂ (fun a v => f a = some v) l vs := by
  induction l generalizing vs with
  | nil => simp [eq_comm]
  | cons a l ih =>
    rw [List.mapM_cons, List.forall₂_cons_left_iff]
    constructor
    · intro h
      obtain ⟨v, hv, h⟩ := Option.bind_eq_some_iff.mp h
      obtain ⟨ws, hw, h⟩ := Option.bind_eq_some_iff.mp h
      cases h
      exact ⟨v, ws, hv, ih.mp hw, rfl⟩
    · rintro ⟨v, ws, hv, hw, rfl⟩
      simp [hv, ih.mpr hw]

namespace Graph

/-- The value of a node from the values of its inputs. -/
theorem foldWithin_succ {id : NodeId} {node : Node} {depth : Nat} {vs : List β}
    (stored : g.node? id = some node)
    (inputs : List.Forall₂ (fun i v => g.foldWithin rule depth i = some v) node.inputs vs) :
    g.foldWithin rule (depth + 1) id = some (rule node vs) := by
  simp only [foldWithin, stored, mapM_eq_some_iff.mpr inputs, Option.map_some]

/-- A value comes from the values of the inputs, at one depth less. -/
theorem foldWithin_eq_some {id : NodeId} {depth : Nat} {v : β}
    (h : g.foldWithin rule depth id = some v) :
    ∃ d node vs, depth = d + 1 ∧ g.node? id = some node ∧
      List.Forall₂ (fun i v => g.foldWithin rule d i = some v) node.inputs vs ∧
      v = rule node vs := by
  cases depth with
  | zero => cases h
  | succ d =>
    simp only [foldWithin] at h
    cases stored : g.node? id with
    | none => rw [stored] at h; cases h
    | some node =>
      rw [stored] at h
      obtain ⟨vs, hvs, hv⟩ := Option.map_eq_some_iff.mp h
      exact ⟨d, node, vs, rfl, rfl, mapM_eq_some_iff.mp hvs, hv.symm⟩

/-- A deeper computation gives the same value. -/
theorem foldWithin_mono {depth depth' : Nat} (le : depth ≤ depth') {id : NodeId} {v : β}
    (h : g.foldWithin rule depth id = some v) : g.foldWithin rule depth' id = some v := by
  induction depth generalizing depth' id v with
  | zero => cases h
  | succ depth ih =>
    obtain ⟨d, node, vs, hd, stored, inputs, rfl⟩ := foldWithin_eq_some h
    cases hd
    obtain ⟨e, rfl⟩ : ∃ e, depth' = e + 1 := ⟨depth' - 1, by omega⟩
    exact foldWithin_succ stored (inputs.imp fun _ _ h => ih (by omega) h)

end Graph

/-! ### Nodes with a symbol -/

namespace Context

/-- The table has no more entries than the graph has nodes. -/
theorem Sound.length_symbols_le {c : Context} (h : c.Sound g) :
    c.symbols.length ≤ g.nodes.length := by
  have := (h.keyed.subperm h.stored).length_le
  simpa [Graph.ids] using this

end Context

/-- The nodes that lowering gave a symbol have a value, at the depth of the length of the table. -/
theorem Graph.Steps.exists_foldWithin [Inhabited β] {c : Context} (s : g.Steps .empty c)
    (rule : Node → List β → β) :
    ∃ value : NodeId → β, ∀ id t, c.symbol? id = some t →
      g.foldWithin rule c.symbols.length id = some (value id) := by
  refine s.invariant (P := fun c => ∃ value : NodeId → β, ∀ id t, c.symbol? id = some t →
      g.foldWithin rule c.symbols.length id = some (value id))
    Context.tracked_empty ⟨fun _ => default, fun _ _ h => (nomatch h)⟩ (fun _ _ _ h => h) ?_
  rintro c node args unbound stored bound ⟨value, hvalue⟩
  refine ⟨Function.update value node.id (rule node (node.inputs.map value)), fun id t ht => ?_⟩
  rw [Context.symbols_settle, List.length_cons]
  rw [Context.symbol?_settle] at ht
  split at ht
  · subst id
    rw [Function.update_self]
    refine foldWithin_succ stored (List.forall₂_map_right_iff.mpr (List.forall₂_same.mpr ?_))
    intro i hi
    obtain ⟨a, ha⟩ := bound.of_mem_ids hi
    exact hvalue i a ha
  · rw [Function.update_of_ne ‹_›]
    exact foldWithin_mono (Nat.le_succ _) (hvalue id t ht)

/-! ### An example -/

/-- A graph in which `n4` and `n7` are shared, the output `n2` is an input of `n5`, the operator of
`n3` is unknown, and nothing takes `n6`. -/
def sharedGraph : Graph :=
  let node (id : UInt32) (kind : Kind) (inputs : List UInt32) : Node :=
    ⟨⟨id⟩, .control, kind, inputs.map NodeId.mk⟩
  ⟨[node 2 .valueOutput [7], node 9 (.input "time") [], node 4 (.math "mul" []) [9, 9],
    node 7 (.math "add" []) [4, 9, 4], node 5 (.wave "sin" (.ofNat 1)) [2],
    node 3 (.math "frob" []) [5, 7], node 8 .audioOutput [3],
    node 6 (.constant (.ofNat 1)) []], ⟨10⟩⟩

end NodeGraph
