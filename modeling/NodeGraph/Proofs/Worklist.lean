import Mathlib.Data.List.Flatten
import Mathlib.Order.Bounds.Defs
import NodeGraph.Proofs.Steps
import NodeGraph.Proofs.Validity

/-!
# The worklist

`Graph.live` keeps ids on a worklist. In each round it takes one of them off: an id that was met
before is dropped; one that is new is met, and its inputs are put on the list. Which id is taken and
where the inputs are put depends on the kind of list. Whether the rounds end and what they find does
not, so a round is a relation that leaves both open (`Graph.Round`): what holds of all runs of such
rounds holds for a stack, for a queue, and for `Graph.follow`.

The rounds end because each of them uses something up, an id on the list or the inputs of a node
that was not met (`Graph.outstanding`). What the list and the ids that were met have to do with the
live nodes is kept by every round (`Graph.Visiting`), and when nothing is left on the list, the ids
that were met are the least set that has the outputs and is closed under taking inputs
(`live_least`).
-/

namespace NodeGraph

open Relation

namespace Graph

/-! ### Rounds -/

/-- One round, on the ids of the worklist and the ids that were met. -/
inductive Round (g : Graph) : List NodeId × List NodeId → List NodeId × List NodeId → Prop where
  /-- An id that was met before is taken off the worklist. -/
  | skip {id : NodeId} {worklist rest seen : List NodeId} (taken : worklist.Perm (id :: rest))
      (met : id ∈ seen) : Round g (worklist, seen) (rest, seen)
  /-- An id that is new is taken off the worklist and is met, and its inputs are put there. -/
  | meet {id : NodeId} {worklist rest next seen : List NodeId} (taken : worklist.Perm (id :: rest))
      (new : id ∉ seen) (put : next.Perm (g.inputsOf id ++ rest)) :
      Round g (worklist, seen) (next, seen ++ [id])

/-- The state before the first round. -/
def start (g : Graph) : List NodeId × List NodeId := (g.outputs.map (·.id), [])

/-- There is a round as long as there is an id on the worklist. -/
theorem exists_round (g : Graph) (id : NodeId) (worklist seen : List NodeId) :
    ∃ next, g.Round (id :: worklist, seen) next := by
  by_cases met : id ∈ seen
  · exact ⟨_, .skip (.refl _) met⟩
  · exact ⟨_, .meet (.refl _) met (.refl _)⟩

/-! ### What the rounds use up -/

/-- How many inputs the nodes have that were not met. -/
def pending (g : Graph) (seen : List NodeId) : Nat :=
  ((g.nodes.filter fun node => !seen.contains node.id).flatMap (·.inputs)).length

/-- How many ids are on the worklist, or may still be put there. -/
def outstanding (g : Graph) (state : List NodeId × List NodeId) : Nat :=
  state.1.length + g.pending state.2

theorem outstanding_start (g : Graph) :
    g.outstanding g.start = g.outputs.length + (g.nodes.flatMap (·.inputs)).length := by
  simp [outstanding, start, pending]

/-- Leaving out nodes, one of them at least, leaves out the inputs of that one. -/
theorem length_flatMap_filter_le {nodes : List Node} {keep : Node → Bool} {node : Node}
    (stored : node ∈ nodes) (out : keep node = false) :
    node.inputs.length + ((nodes.filter keep).flatMap (·.inputs)).length ≤
      (nodes.flatMap (·.inputs)).length := by
  have sub (l : List Node) : ((l.filter keep).flatMap (·.inputs)).length ≤
      (l.flatMap (·.inputs)).length :=
    (List.filter_sublist.flatMap _).length_le
  obtain ⟨before, after, rfl⟩ := List.append_of_mem stored
  have h₁ := sub before
  have h₂ := sub after
  simp only [List.filter_append, List.filter_cons, out, List.flatMap_append, List.flatMap_cons,
    List.length_append, Bool.false_eq_true, if_false]
  omega

/-- Meeting a new id takes its inputs from those that are pending. -/
theorem pending_concat_le (g : Graph) {seen : List NodeId} {id : NodeId} (new : id ∉ seen) :
    (g.inputsOf id).length + g.pending (seen ++ [id]) ≤ g.pending seen := by
  have narrow : g.nodes.filter (fun node => !(seen ++ [id]).contains node.id) =
      (g.nodes.filter fun node => !seen.contains node.id).filter (·.id != id) := by
    rw [List.filter_filter]
    refine List.filter_congr fun node _ => ?_
    by_cases same : node.id = id <;> simp [same]
  unfold pending
  rw [narrow]
  cases stored : g.node? id with
  | none =>
    rw [inputsOf, stored, List.length_nil, Nat.zero_add]
    exact (List.filter_sublist.flatMap _).length_le
  | some node =>
    rw [inputsOf, stored]
    have same := id_of_node? stored
    refine length_flatMap_filter_le (List.mem_filter.mpr ⟨mem_of_node? stored, ?_⟩) ?_
    · simpa [same] using new
    · simp [same]

/-- Every round uses something up. -/
theorem Round.outstanding_lt {g : Graph} {s t : List NodeId × List NodeId} (h : g.Round s t) :
    g.outstanding t < g.outstanding s := by
  cases h with
  | skip taken met =>
    have length := taken.length_eq
    rw [List.length_cons] at length
    simp only [outstanding]
    omega
  | meet taken new put =>
    have length := taken.length_eq
    have grown := put.length_eq
    have used := g.pending_concat_le new
    rw [List.length_cons] at length
    rw [List.length_append] at grown
    simp only [outstanding]
    omega

/-- So no run has more rounds than there is to use up. -/
theorem length_le_outstanding {g : Graph} {s : List NodeId × List NodeId}
    {run : List (List NodeId × List NodeId)} (h : List.IsChain g.Round (s :: run)) :
    run.length ≤ g.outstanding s := by
  induction run generalizing s with
  | nil => exact Nat.zero_le _
  | cons next run ih =>
    obtain ⟨first, others⟩ := List.isChain_cons_cons.mp h
    have shorter := ih others
    have used := first.outstanding_lt
    rw [List.length_cons]
    omega

/-- Following a worklist with fuel for all that is outstanding is a run that empties it. -/
theorem rounds_follow {g : Graph} {fuel : Nat} {worklist seen : List NodeId}
    (enough : g.outstanding (worklist, seen) < fuel) :
    ReflTransGen g.Round (worklist, seen) ([], g.follow fuel worklist seen) := by
  induction fuel generalizing worklist seen with
  | zero => exact absurd enough (Nat.not_lt_zero _)
  | succ fuel ih =>
    cases worklist with
    | nil => exact .refl
    | cons id worklist =>
      -- the first id is taken, and its inputs are put in front of the others
      have go {next : List NodeId × List NodeId} (first : g.Round (id :: worklist, seen) next) :
          ReflTransGen g.Round (id :: worklist, seen) ([], g.follow fuel next.1 next.2) :=
        .head first (ih (Nat.lt_of_lt_of_le first.outstanding_lt (Nat.le_of_lt_succ enough)))
      unfold Graph.follow
      by_cases met : id ∈ seen
      · rw [if_pos (List.contains_iff_mem.mpr met)]
        exact go (.skip (.refl _) met)
      · rw [if_neg (mt List.contains_iff_mem.mp met)]
        exact go (.meet (.refl _) met (.refl _))

theorem rounds_live (g : Graph) : ReflTransGen g.Round g.start ([], g.live) := by
  refine rounds_follow ?_
  rw [← start, outstanding_start, List.length_map]
  exact Nat.lt_succ_self _

/-! ### What the rounds find -/

/-- A state of the worklist: all that was met or is to be met is live, nothing was met twice, and
what is needed to make the ids that were met all of the live ones is on the list. -/
structure Visiting (g : Graph) (worklist seen : List NodeId) : Prop where
  live : ∀ id, id ∈ seen ∨ id ∈ worklist → g.Live id
  outputs : ∀ output ∈ g.outputs, output.id ∈ seen ∨ output.id ∈ worklist
  inputs : ∀ a ∈ seen, ∀ b ∈ g.inputsOf a, b ∈ seen ∨ b ∈ worklist
  nodup : seen.Nodup

theorem visiting_outputs (g : Graph) : g.Visiting (g.outputs.map (·.id)) [] where
  live id h := by
    rcases h with h | h
    · cases h
    · obtain ⟨output, hout, rfl⟩ := List.mem_map.mp h
      exact live_output hout
  outputs _ hout := .inr (List.mem_map_of_mem hout)
  inputs _ h := nomatch h
  nodup := List.nodup_nil

theorem Live.inputsOf {g : Graph} {a b : NodeId} (h : g.Live a) (hb : b ∈ g.inputsOf a) :
    g.Live b := by
  obtain ⟨output, hout, reach⟩ := h
  exact ⟨output, hout, reach.tail hb⟩

/-- The order of the worklist does not matter. -/
theorem Visiting.of_perm {g : Graph} {worklist worklist' seen : List NodeId}
    (h : g.Visiting worklist seen) (p : worklist.Perm worklist') : g.Visiting worklist' seen where
  live id hid := h.live id (hid.imp_right p.mem_iff.mpr)
  outputs output hout := (h.outputs output hout).imp_right p.mem_iff.mp
  inputs a ha b hb := (h.inputs a ha b hb).imp_right p.mem_iff.mp
  nodup := h.nodup

/-- An id that was met before is dropped. -/
theorem Visiting.skip {g : Graph} {id : NodeId} {worklist seen : List NodeId}
    (h : g.Visiting (id :: worklist) seen) (met : id ∈ seen) : g.Visiting worklist seen := by
  have drop {i : NodeId} (hi : i ∈ seen ∨ i ∈ id :: worklist) : i ∈ seen ∨ i ∈ worklist := by
    rcases hi with hi | hi
    · exact .inl hi
    · rcases List.mem_cons.mp hi with rfl | hi
      · exact .inl met
      · exact .inr hi
  exact ⟨fun i hi => h.live i (hi.imp_right (List.mem_cons_of_mem _)),
    fun output hout => drop (h.outputs output hout), fun a ha b hb => drop (h.inputs a ha b hb),
    h.nodup⟩

/-- An id that is new is met, and its inputs are to be met. -/
theorem Visiting.meet {g : Graph} {id : NodeId} {worklist seen : List NodeId}
    (h : g.Visiting (id :: worklist) seen) (new : id ∉ seen) :
    g.Visiting (g.inputsOf id ++ worklist) (seen ++ [id]) := by
  have move {i : NodeId} (hi : i ∈ seen ∨ i ∈ id :: worklist) :
      i ∈ seen ++ [id] ∨ i ∈ g.inputsOf id ++ worklist := by
    rw [List.mem_cons] at hi
    rw [List.mem_append, List.mem_append, List.mem_singleton]
    tauto
  have live : g.Live id := h.live id (.inr List.mem_cons_self)
  refine ⟨fun i hi => ?_, fun output hout => move (h.outputs output hout), fun a ha b hb => ?_,
    List.concat_eq_append ▸ h.nodup.concat new⟩
  · rw [List.mem_append, List.mem_append, List.mem_singleton] at hi
    rcases hi with (hi | rfl) | (hi | hi)
    · exact h.live i (.inl hi)
    · exact live
    · exact live.inputsOf hi
    · exact h.live i (.inr (List.mem_cons_of_mem _ hi))
  · rcases List.mem_append.mp ha with ha | ha
    · exact move (h.inputs a ha b hb)
    · rw [List.mem_singleton.mp ha] at hb
      exact .inr (List.mem_append_left _ hb)

theorem Visiting.round {g : Graph} {s t : List NodeId × List NodeId} (h : g.Visiting s.1 s.2)
    (step : g.Round s t) : g.Visiting t.1 t.2 := by
  cases step with
  | skip taken met => exact (h.of_perm taken).skip met
  | meet taken new put => exact ((h.of_perm taken).meet new).of_perm put.symm

/-- **What every run of rounds keeps.** -/
theorem visiting_of_rounds {g : Graph} {s : List NodeId × List NodeId}
    (run : ReflTransGen g.Round g.start s) : g.Visiting s.1 s.2 := by
  induction run with
  | refl => exact g.visiting_outputs
  | tail _ step ih => exact ih.round step

/-- When the worklist is empty, the live nodes were met. -/
theorem Visiting.mem_iff_live {g : Graph} {seen : List NodeId} (h : g.Visiting [] seen)
    (id : NodeId) : id ∈ seen ↔ g.Live id := by
  refine ⟨fun hid => h.live id (.inl hid), fun live => live.mem_of_closed ?_ ?_⟩
  · exact fun output hout => (h.outputs output hout).resolve_right (by simp)
  · exact fun a ha b hb => (h.inputs a ha b hb).resolve_right (by simp)

/-- The worklist finds the live nodes. -/
theorem mem_live_iff (g : Graph) (id : NodeId) : id ∈ g.live ↔ g.Live id :=
  (visiting_of_rounds g.rounds_live).mem_iff_live id

/-- The worklist finds each of them once. -/
theorem nodup_live (g : Graph) : g.live.Nodup := (visiting_of_rounds g.rounds_live).nodup

/-! ### The least closed set -/

/-- A set of ids has every output and, with a stored node, all its inputs. -/
structure Saturated (g : Graph) (s : Set NodeId) : Prop where
  outputs : ∀ node ∈ g.nodes, node.kind.isOutput = true → node.id ∈ s
  inputs : ∀ node ∈ g.nodes, node.id ∈ s → ∀ i ∈ node.inputs, i ∈ s

/-- In a valid graph the live ids are the least such set. -/
theorem Valid.isLeast_live {g : Graph} (valid : g.Valid) :
    IsLeast {s | g.Saturated s} {id | g.Live id} := by
  constructor
  · constructor
    · exact fun node hn output => live_output (List.mem_filter.mpr ⟨hn, output⟩)
    · exact fun node hn live i hi => live.input (valid.node?_eq_some hn) hi
  · rintro s saturated id ⟨output, hout, reach⟩
    obtain ⟨hn, isOutput⟩ := List.mem_filter.mp hout
    induction reach with
    | refl => exact saturated.outputs output hn isOutput
    | @tail a b _ step ih =>
      cases stored : g.node? a with
      | none => simp [DependsOn, inputsOf, stored] at step
      | some node =>
        obtain rfl := id_of_node? stored
        exact saturated.inputs node (mem_of_node? stored) ih b ((dependsOn_iff stored).mp step)

theorem Visiting.isLeast {g : Graph} {seen : List NodeId} (h : g.Visiting [] seen)
    (valid : g.Valid) : IsLeast {s | g.Saturated s} {id | id ∈ seen} := by
  have same : {id | id ∈ seen} = {id | g.Live id} := Set.ext h.mem_iff_live
  exact same ▸ valid.isLeast_live

end Graph

/-- **The worklist ends and is exact.** Let a graph have an index; it may have cycles, nodes that
take themselves and inputs that repeat. No run of rounds from the outputs is longer than there are
outputs and inputs together, whichever ids are taken off the worklist. A run that cannot go on has
emptied it, has met no id twice, and has met the least set of ids that has every output and is
closed under taking inputs. The ids that `live` gives are those of such a run. -/
theorem live_least {g : Graph} {index : Index} (indexed : g.index = .ok index) :
    (∀ run, List.IsChain g.Round (g.start :: run) →
      run.length ≤ g.outputs.length + (g.nodes.flatMap (·.inputs)).length) ∧
    (∀ worklist seen, ReflTransGen g.Round g.start (worklist, seen) →
      (∀ next, ¬g.Round (worklist, seen) next) →
        worklist = [] ∧ seen.Nodup ∧ IsLeast {s | g.Saturated s} {id | id ∈ seen}) ∧
    ReflTransGen g.Round g.start ([], g.live) ∧
    IsLeast {s | g.Saturated s} {id | id ∈ g.live} := by
  have valid : g.Valid := g.index_eq_ok_iff.mp ⟨index, indexed⟩
  refine ⟨fun run chain => ?_, fun worklist seen run stuck => ?_, g.rounds_live, ?_⟩
  · exact g.outstanding_start ▸ Graph.length_le_outstanding chain
  · have visiting := Graph.visiting_of_rounds run
    cases worklist with
    | nil => exact ⟨rfl, visiting.nodup, visiting.isLeast valid⟩
    | cons id worklist =>
      obtain ⟨next, round⟩ := g.exists_round id worklist seen
      exact absurd round (stuck next)
  · exact (Graph.visiting_of_rounds g.rounds_live).isLeast valid

/-- A graph with an output on a cycle, a node that takes itself twice, and a cycle that no output
depends on. -/
def tangledGraph : Graph :=
  let node (id : UInt32) (kind : Kind) (inputs : List UInt32) : Node :=
    ⟨⟨id⟩, .control, kind, inputs.map NodeId.mk⟩
  ⟨[node 6 (.math "add" []) [5, 1], node 1 (.math "mul" []) [1, 3, 1], node 5 (.math "abs" []) [6],
    node 2 .valueOutput [1, 1], node 3 (.math "abs" []) [2], node 8 .audioOutput []], ⟨9⟩⟩

/-- In `tangledGraph` a set with both outputs that is closed under taking inputs has `n2`, `n1`,
`n3` and `n8`, and these are enough; no run has more than eleven rounds. -/
theorem live_least_tangledGraph :
    ∃ index, tangledGraph.index = .ok index ∧
      IsLeast {s | tangledGraph.Saturated s} {id | id ∈ [2, 1, 3, 8].map NodeId.mk} ∧
      ∀ run, List.IsChain tangledGraph.Round (tangledGraph.start :: run) → run.length ≤ 11 := by
  obtain ⟨index, indexed⟩ : ∃ index, tangledGraph.index = .ok index := ⟨_, rfl⟩
  obtain ⟨short, -, -, least⟩ := live_least indexed
  have live : tangledGraph.live = [2, 1, 3, 8].map NodeId.mk := by decide +kernel
  exact ⟨index, indexed, live ▸ least, fun run chain => short run chain⟩

end NodeGraph
