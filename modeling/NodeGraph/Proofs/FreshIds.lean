import NodeGraph.Proofs.Loading

/-!
# Fresh ids

A graph hands out ids from its mark, and the mark stays past every id that the graph was ever given,
whether the node of the id is still stored or not: a document sets it, adding and pushing raise it,
and no edit of the stored nodes touches it (`Session.Sound`). So an added node takes an id that is
greater than all of these (`add_fresh`). Nodes that are put straight into the stored list are not
counted by the mark; of these only the last stored one is looked at.

An id has to have one after it, and the greatest one has none. Adding and pushing are given here
once more, as programs that change a graph in place, one write after the other (`InPlace.add`,
`InPlace.push`). They may stop on their way, but not between two writes, so that a program that
stops leaves the graph as it was (`InPlace.run_add`, `InPlace.run_push`). When it does stop is said
in numbers by `ids_suffice_iff`: ids are not wanting as long as `4294967295` is neither read nor
pushed, and `4294967294` is not stored.
-/

namespace NodeGraph

/-! ### The id after another one -/

namespace NodeId

/-- The greatest id. -/
def greatest : NodeId := ⟨4294967295⟩

theorem eq_greatest_iff {id : NodeId} : id = greatest ↔ id.val.toNat = 4294967295 := by
  obtain ⟨val⟩ := id
  rw [greatest, NodeId.mk.injEq, ← UInt32.toNat_inj]
  rfl

theorem toNat_lt_of_ne_greatest {id : NodeId} (h : id ≠ greatest) :
    id.val.toNat < 4294967295 := by
  have bound := id.val.toNat_lt
  have ne := mt eq_greatest_iff.mpr h
  omega

/-- Only the greatest id has none after it. -/
theorem next?_eq_none_iff {id : NodeId} : id.next? = none ↔ id = greatest := by
  constructor
  · intro none
    by_contra ne
    obtain ⟨after, next, -⟩ := next?_eq (toNat_lt_of_ne_greatest ne)
    cases none.symm.trans next
  · rintro rfl
    rfl

theorem toNat_of_next? {id after : NodeId} (h : id.next? = some after) :
    after.val.toNat = id.val.toNat + 1 := by
  have ne : id ≠ greatest := by
    intro greatest
    cases (next?_eq_none_iff.mpr greatest).symm.trans h
  obtain ⟨after', next, value⟩ := next?_eq (toNat_lt_of_ne_greatest ne)
  cases next.symm.trans h
  exact value

end NodeId

/-! ### Storing a node -/

namespace Graph

/-- A graph has one node more than another, after the others, and its mark is past that node. -/
structure Grows (g h : Graph) (node : Node) : Prop where
  nodes : h.nodes = g.nodes ++ [node]
  mark : h.mark.val.toNat = max g.mark.val.toNat (node.id.val.toNat + 1)

theorem push?_eq_some {g h : Graph} {node : Node} (pushed : g.push? node = some h) :
    g.Grows h node := by
  obtain ⟨after, next, rfl⟩ := Option.map_eq_some_iff.mp pushed
  refine ⟨rfl, ?_⟩
  rw [NodeId.toNat_later, NodeId.toNat_of_next? next]

theorem push?_eq_none_iff {g : Graph} {node : Node} :
    g.push? node = none ↔ node.id = .greatest := by
  rw [push?, Option.map_eq_none_iff, NodeId.next?_eq_none_iff]

theorem afterLast?_eq_none_iff {g : Graph} :
    g.afterLast? = none ↔ ∃ last ∈ g.nodes.getLast?, last.id = .greatest := by
  unfold afterLast?
  cases g.nodes.getLast? with
  | none => simp
  | some last => simp [NodeId.next?_eq_none_iff]

theorem toNat_of_afterLast? {g : Graph} {after : NodeId} (h : g.afterLast? = some after) :
    after.val.toNat = g.nodes.getLast?.elim 0 (·.id.val.toNat + 1) := by
  unfold afterLast? at h
  cases last : g.nodes.getLast? with
  | none => rw [last] at h; cases h; rfl
  | some node => rw [last] at h; exact NodeId.toNat_of_next? h

/-- A node is added by pushing it under the greater of the mark and the id after the last one. -/
theorem add?_of_afterLast? {g : Graph} {after : NodeId} (h : g.afterLast? = some after)
    (domain : Domain) (kind : Kind) (inputs : List NodeId) :
    g.add? domain kind inputs =
      (g.push? ⟨g.mark.later after, domain, kind, inputs⟩).map (g.mark.later after, ·) := by
  rw [add?, h, Option.map_eq_bind]
  rfl

/-- What adding a node comes to: the id is at least the mark and past the last stored one. -/
theorem add?_eq_some {g h : Graph} {domain : Domain} {kind : Kind} {inputs : List NodeId}
    {id : NodeId} (added : g.add? domain kind inputs = some (id, h)) :
    g.Grows h ⟨id, domain, kind, inputs⟩ ∧ g.mark.val.toNat ≤ id.val.toNat ∧
      ∀ last ∈ g.nodes.getLast?, last.id.val.toNat < id.val.toNat := by
  cases hafter : g.afterLast? with
  | none => rw [add?, hafter] at added; cases added
  | some after =>
    rw [add?_of_afterLast? hafter] at added
    obtain ⟨grown, pushed, same⟩ := Option.map_eq_some_iff.mp added
    cases same
    have value := toNat_of_afterLast? hafter
    refine ⟨push?_eq_some pushed, ?_, fun last hlast => ?_⟩
    · rw [NodeId.toNat_later]
      omega
    · rw [Option.mem_def.mp hlast, Option.elim_some] at value
      rw [NodeId.toNat_later]
      omega

/-- No id is left for a node to be added when the mark is the greatest id, or when there are less
than two ids after the last stored one. -/
theorem add?_eq_none_iff {g : Graph} {domain : Domain} {kind : Kind} {inputs : List NodeId} :
    g.add? domain kind inputs = none ↔
      g.mark = .greatest ∨ ∃ last ∈ g.nodes.getLast?, 4294967294 ≤ last.id.val.toNat := by
  have markBound := g.mark.val.toNat_lt
  cases hafter : g.afterLast? with
  | none =>
    obtain ⟨last, hlast, greatest⟩ := afterLast?_eq_none_iff.mp hafter
    have value := NodeId.eq_greatest_iff.mp greatest
    refine iff_of_true (by rw [add?, hafter]; rfl) (.inr ⟨last, hlast, ?_⟩)
    omega
  | some after =>
    have value := toNat_of_afterLast? hafter
    have afterBound := after.val.toNat_lt
    rw [add?_of_afterLast? hafter, Option.map_eq_none_iff, push?_eq_none_iff,
      NodeId.eq_greatest_iff, NodeId.toNat_later, NodeId.eq_greatest_iff]
    cases last : g.nodes.getLast? with
    | none =>
      rw [last, Option.elim_none] at value
      simp only [Option.not_mem_none, false_and, exists_false, or_false]
      omega
    | some node =>
      rw [last, Option.elim_some] at value
      simp only [Option.mem_def, Option.some.injEq, exists_eq_left']
      omega

end Graph

/-! ### Changes in place -/

/-- A program that changes a graph in place. It may stop for want of an id, and the graph then is
what it has written so far. -/
abbrev InPlace (α : Type) : Type := OptionT (StateM Graph) α

namespace InPlace

/-- The id after another one; stops when there is none. -/
def idAfter (id : NodeId) : InPlace NodeId := OptionT.mk (pure id.next?)

/-- Raise the mark past the id of a node, then store the node after the others. -/
def push (node : Node) : InPlace Unit := do
  let after ← idAfter node.id
  modify fun g => { g with mark := g.mark.later after }
  modify fun g => { g with nodes := g.nodes ++ [node] }

/-- The id after that of the last stored node, the least id when there is none. -/
def afterLast : InPlace NodeId := do
  match (← get).nodes.getLast? with
  | none => return .first
  | some last => idAfter last.id

/-- Look for the next free id, then push a node under it, and tell the id. -/
def add (domain : Domain) (kind : Kind) (inputs : List NodeId) : InPlace NodeId := do
  let after ← afterLast
  let id := (← get).mark.later after
  push ⟨id, domain, kind, inputs⟩
  return id

/-- A program after another one runs on what the first one wrote, unless that one stops. -/
theorem run_bind {α β : Type} (x : InPlace α) (f : α → InPlace β) (g : Graph) :
    (x >>= f).run g =
      match x.run g with
      | (some a, h) => (f a).run h
      | (none, h) => (none, h) := by
  change (match x.run g with
    | (answer, h) =>
      (match answer with | some a => f a | none => (pure none : StateM Graph _)) h) = _
  obtain ⟨_ | a, h⟩ := x.run g <;> rfl

@[simp] theorem run_get (g : Graph) : (get : InPlace Graph).run g = (some g, g) := rfl

theorem run_afterLast (g : Graph) : afterLast.run g = (g.afterLast?, g) := by
  unfold afterLast Graph.afterLast?
  rw [run_bind, run_get]
  simp only
  cases g.nodes.getLast? <;> rfl

/-- **Pushing in place** stores the node, or stops before anything is written. -/
theorem run_push (node : Node) (g : Graph) :
    (push node).run g =
      match g.push? node with
      | some h => (some (), h)
      | none => (none, g) := by
  unfold push idAfter Graph.push?
  cases node.id.next? <;> rfl

/-- **Adding in place** stores the node and tells its id, or stops before anything is written. -/
theorem run_add (domain : Domain) (kind : Kind) (inputs : List NodeId) (g : Graph) :
    (add domain kind inputs).run g =
      match g.add? domain kind inputs with
      | some (id, h) => (some id, h)
      | none => (none, g) := by
  unfold add
  rw [run_bind, run_afterLast]
  cases hafter : g.afterLast? with
  | none => rw [Graph.add?, hafter]; rfl
  | some after =>
    rw [Graph.add?_of_afterLast? hafter]
    simp only
    rw [run_bind, run_get]
    simp only
    rw [run_bind, run_push]
    cases g.push? ⟨g.mark.later after, domain, kind, inputs⟩ <;> rfl

end InPlace

/-! ### Edits -/

/-- What the author of a graph can do to it. -/
inductive Edit where
  /-- Add a node under the next free id. -/
  | add (domain : Domain) (kind : Kind) (inputs : List NodeId)
  /-- Push a node under the id that it has. -/
  | push (node : Node)
  /-- Put a node straight into the stored list, after the others. -/
  | append (node : Node)
  /-- Take nodes out of the stored list. -/
  | remove (rest : List Node → List Node) (fewer : ∀ nodes, (rest nodes).Sublist nodes)
  /-- Take all nodes out of the stored list. -/
  | clear
  /-- Put the stored nodes in another order. -/
  | reorder (arranged : List Node → List Node) (same : ∀ nodes, (arranged nodes).Perm nodes)
  /-- Give each stored node inputs, by its place and what it is. -/
  | rewire (inputs : Nat → Node → List NodeId)

namespace Edit

/-- Carry out an edit, and tell the id of a node that was added. -/
def perform : Edit → InPlace (Option NodeId)
  | .add domain kind inputs => do return some (← InPlace.add domain kind inputs)
  | .push node => do InPlace.push node; return none
  | .append node => do modify (·.append node); return none
  | .remove rest _ => do modify fun g => { g with nodes := rest g.nodes }; return none
  | .clear => do modify Graph.clear; return none
  | .reorder arranged _ => do modify fun g => { g with nodes := arranged g.nodes }; return none
  | .rewire inputs => do
    modify fun g =>
      { g with nodes := g.nodes.mapIdx fun k node => { node with inputs := inputs k node } }
    return none

/-- The edits of the stored nodes that graphs have of their own are such edits. -/
theorem run_own (g : Graph) (id : NodeId) (inputs : List NodeId) :
    (remove (·.filter fun node => node.id != id) fun _ => List.filter_sublist).perform.run g =
        (some none, g.remove id) ∧
      (reorder List.reverse List.reverse_perm).perform.run g = (some none, g.reverse) ∧
      (rewire fun _ node => if node.id = id then inputs else node.inputs).perform.run g =
        (some none, g.rewire id inputs) := by
  refine ⟨rfl, rfl, ?_⟩
  have nodes : (g.nodes.mapIdx fun _ node =>
      { node with inputs := if node.id = id then inputs else node.inputs }) =
        (g.rewire id inputs).nodes := by
    refine List.ext_getElem? fun k => ?_
    rw [List.getElem?_mapIdx, Graph.rewire, List.getElem?_map]
    congr 1
    funext node
    split <;> rfl
  exact congrArg (fun nodes => (some none, ({ g with nodes } : Graph))) nodes

/-- The ids that an edit gives to a graph: that of a pushed node, or the one that was told. -/
def given (edit : Edit) (answer : Option NodeId) : List NodeId :=
  match edit with
  | .push node => [node.id]
  | _ => answer.toList

/-- The id of a node that an edit puts straight into the stored list. -/
def appended : Edit → List NodeId
  | .append node => [node.id]
  | _ => []

end Edit

/-- A graph under edits, with the ids that it came by. -/
structure Session where
  graph : Graph
  /-- The ids that were read, pushed or told so far, the latest first. -/
  given : List NodeId
  /-- The ids of nodes that were put straight into the stored list so far. -/
  appended : List NodeId

namespace Session

/-- A session starts with a graph whose ids were given to it. -/
def start (g : Graph) : Session := ⟨g, g.ids, []⟩

/-- The session after an edit. One that stops gives no ids, and leaves what it has written. -/
def step (s : Session) (edit : Edit) : Session :=
  match edit.perform.run s.graph with
  | (none, h) => { s with graph := h }
  | (some answer, h) => ⟨h, edit.given answer ++ s.given, edit.appended ++ s.appended⟩

/-- The session after some edits, whether they stop or not. -/
def after (s : Session) (edits : List Edit) : Session := edits.foldl step s

/-- What an edit can do to a session: store a node that is given to the graph, put one straight into
the stored list, or leave stored what was stored. -/
theorem step_cases (s : Session) (edit : Edit) :
    (∃ node, s.graph.Grows (s.step edit).graph node ∧ (s.step edit).given = node.id :: s.given ∧
      (s.step edit).appended = s.appended) ∨
    (∃ node, s.step edit = ⟨s.graph.append node, s.given, node.id :: s.appended⟩) ∨
    (s.step edit).graph.mark = s.graph.mark ∧ (s.step edit).graph.ids ⊆ s.graph.ids ∧
      (s.step edit).given = s.given ∧ (s.step edit).appended = s.appended := by
  cases edit with
  | add domain kind inputs =>
    have run : (Edit.perform (.add domain kind inputs)).run s.graph =
        match s.graph.add? domain kind inputs with
        | some (id, h) => (some (some id), h)
        | none => (none, s.graph) := by
      rw [Edit.perform, InPlace.run_bind, InPlace.run_add]
      cases s.graph.add? domain kind inputs <;> rfl
    unfold step
    rw [run]
    cases added : s.graph.add? domain kind inputs with
    | none => exact .inr (.inr ⟨rfl, List.Subset.refl _, rfl, rfl⟩)
    | some told => exact .inl ⟨_, (Graph.add?_eq_some added).1, rfl, rfl⟩
  | push node =>
    have run : (Edit.perform (.push node)).run s.graph =
        match s.graph.push? node with
        | some h => (some none, h)
        | none => (none, s.graph) := by
      rw [Edit.perform, InPlace.run_bind, InPlace.run_push]
      cases s.graph.push? node <;> rfl
    unfold step
    rw [run]
    cases pushed : s.graph.push? node with
    | none => exact .inr (.inr ⟨rfl, List.Subset.refl _, rfl, rfl⟩)
    | some h => exact .inl ⟨node, Graph.push?_eq_some pushed, rfl, rfl⟩
  | append node => exact .inr (.inl ⟨node, rfl⟩)
  | remove rest fewer =>
    exact .inr (.inr ⟨rfl, ((fewer s.graph.nodes).map _).subset, rfl, rfl⟩)
  | clear => exact .inr (.inr ⟨rfl, List.nil_subset _, rfl, rfl⟩)
  | reorder arranged same =>
    exact .inr (.inr ⟨rfl, ((same s.graph.nodes).map _).subset, rfl, rfl⟩)
  | rewire inputs =>
    have ids : (s.step (.rewire inputs)).graph.ids = s.graph.ids := by
      refine List.ext_getElem? fun k => ?_
      change ((s.graph.nodes.mapIdx _).map _)[k]? = (s.graph.nodes.map _)[k]?
      simp [Function.comp_def]
    exact .inr (.inr ⟨rfl, ids ▸ List.Subset.refl _, rfl, rfl⟩)

/-- What every edit preserves: the mark is past all ids that were given, and whatever is stored was
given or put straight into the list. -/
structure Sound (s : Session) : Prop where
  past : ∀ id ∈ s.given, id.val.toNat < s.graph.mark.val.toNat
  stored : ∀ id ∈ s.graph.ids, id ∈ s.given ∨ id ∈ s.appended

theorem Sound.step {s : Session} (h : s.Sound) (edit : Edit) : (s.step edit).Sound := by
  obtain ⟨node, grows, given, appended⟩ | ⟨node, e⟩ | ⟨mark, ids, given, appended⟩ :=
    s.step_cases edit
  · constructor
    · rw [given, grows.mark]
      intro id hid
      rcases List.mem_cons.mp hid with rfl | hid
      · omega
      · have := h.past id hid
        omega
    · rw [given, appended, Graph.ids, grows.nodes, List.map_append]
      intro id hid
      rcases List.mem_append.mp hid with hid | hid
      · exact (h.stored id hid).imp_left (List.mem_cons_of_mem _)
      · exact .inl (List.mem_singleton.mp hid ▸ List.mem_cons_self)
  · rw [e]
    refine ⟨h.past, fun id hid => ?_⟩
    rw [Graph.ids, Graph.append, List.map_append] at hid
    rcases List.mem_append.mp hid with hid | hid
    · exact (h.stored id hid).imp_right (List.mem_cons_of_mem _)
    · exact .inr (List.mem_singleton.mp hid ▸ List.mem_cons_self)
  · refine ⟨?_, ?_⟩
    · rw [given, mark]
      exact h.past
    · rw [given, appended]
      exact fun id hid => h.stored id (ids hid)

theorem Sound.after {s : Session} (h : s.Sound) (edits : List Edit) : (s.after edits).Sound := by
  induction edits generalizing s with
  | nil => exact h
  | cons edit edits ih => exact ih (h.step edit)

/-- The last stored node has an id at least as great as each one that is stored and came only with a
node put straight into the list. -/
def Covered (s : Session) : Prop :=
  ∀ id ∈ s.graph.ids, id ∈ s.appended → id ∉ s.given →
    ∀ last ∈ s.graph.nodes.getLast?, id.val ≤ last.id.val

section

variable {s : Session} {h : Graph} {domain : Domain} {kind : Kind} {inputs : List NodeId}
  {id : NodeId}

/-- The id of an added node is greater than all that were given before. -/
theorem Sound.given_lt (sound : s.Sound) (added : s.graph.add? domain kind inputs = some (id, h)) :
    ∀ i ∈ s.given, i.val < id.val := by
  intro i hi
  obtain ⟨-, mark, -⟩ := Graph.add?_eq_some added
  exact UInt32.lt_iff_toNat_lt.mpr (Nat.lt_of_lt_of_le (sound.past i hi) mark)

/-- It is also greater than all that are stored, when the last stored one covers those that only
came with nodes put straight into the list. -/
theorem Sound.stored_lt (sound : s.Sound) (added : s.graph.add? domain kind inputs = some (id, h))
    (covered : s.Covered) : ∀ i ∈ s.graph.ids, i.val < id.val := by
  intro i hi
  by_cases known : i ∈ s.given
  · exact sound.given_lt added i known
  · have appended := (sound.stored i hi).resolve_left known
    have nonempty : s.graph.nodes ≠ [] := by
      intro empty
      rw [Graph.ids, empty] at hi
      cases hi
    have hlast := List.getLast?_eq_some_getLast nonempty
    have le := covered i hi appended known _ hlast
    obtain ⟨-, -, past⟩ := Graph.add?_eq_some added
    exact UInt32.lt_iff_toNat_lt.mpr
      (Nat.lt_of_le_of_lt (UInt32.le_iff_toNat_le.mp le) (past _ hlast))

end

end Session

/-! ### Graphs to start with -/

/-- The graphs that sessions start with: the one without nodes, and those of documents. -/
inductive Graph.Initial : Graph → Prop where
  | empty : Initial .empty
  | loaded {text : String} {g : Graph} (read : Document.load text = .ok g) : Initial g

theorem toNat_lt_pastIds {ns : List Node} {node : Node} (h : node ∈ ns) :
    node.id.val.toNat < pastIds ns := by
  have mem : node.id.val.toNat ∈ ns.map (·.id.val.toNat) := List.mem_map_of_mem h
  unfold pastIds
  cases greatest : (ns.map (·.id.val.toNat)).max? with
  | none => rw [List.max?_eq_none_iff.mp greatest] at mem; cases mem
  | some m => exact Nat.lt_succ_of_le ((List.max?_eq_some_iff.mp greatest).2 _ mem)

theorem exists_of_pastIds {ns : List Node} {k : Nat} (h : pastIds ns = k + 1) :
    ∃ node ∈ ns, node.id.val.toNat = k := by
  unfold pastIds at h
  cases greatest : (ns.map (·.id.val.toNat)).max? with
  | none => rw [greatest] at h; cases h
  | some m =>
    rw [greatest, Option.elim_some, Nat.add_right_cancel_iff] at h
    exact List.mem_map.mp (h ▸ (List.max?_eq_some_iff.mp greatest).1)

theorem pastIds_concat (ns : List Node) (node : Node) :
    pastIds (ns ++ [node]) = max (pastIds ns) (node.id.val.toNat + 1) := by
  rw [pastIds_eq, pastIds_eq, List.map_append, List.foldl_append]
  rfl

namespace Graph

/-- A node of the greatest id is all that keeps some nodes from being a graph. -/
theorem ofNodes?_eq_none_iff {ns : List Node} :
    ofNodes? ns = none ↔ ∃ node ∈ ns, node.id = .greatest := by
  constructor
  · intro none
    by_contra below
    obtain ⟨mark, graph, -⟩ := ofNodes?_eq fun node hnode =>
      NodeId.toNat_lt_of_ne_greatest fun greatest => below ⟨node, hnode, greatest⟩
    cases none.symm.trans graph
  · rintro ⟨node, hnode, greatest⟩
    have next := NodeId.next?_eq_none_iff.mpr greatest
    have afters : ns.mapM (fun n => n.id.next?) = none := by
      obtain ⟨before, after, rfl⟩ := List.append_of_mem hnode
      rw [List.mapM_append, List.mapM_cons, next]
      cases before.mapM fun n => n.id.next? <;> rfl
    rw [ofNodes?, afters]
    rfl

/-- The mark of the graph of some nodes is one past the greatest of their ids. -/
theorem ofNodes?_eq_some {ns : List Node} {g : Graph} (h : ofNodes? ns = some g) :
    g.nodes = ns ∧ g.mark.val.toNat = pastIds ns := by
  have below : ¬∃ node ∈ ns, node.id = .greatest := by
    rw [← ofNodes?_eq_none_iff, h]
    simp
  obtain ⟨mark, graph, past⟩ := ofNodes?_eq fun node hnode =>
    NodeId.toNat_lt_of_ne_greatest fun greatest => below ⟨node, hnode, greatest⟩
  cases graph.symm.trans h
  exact ⟨rfl, past⟩

end Graph

/-- What loading a text comes to: the text is malformed, its nodes make no graph, or they make one
and nothing or something follows them. -/
theorem Document.load_cases (text : String) :
    (∃ fault, nodes text.toList = .error fault ∧ load text = .error (.malformed fault)) ∨
    ∃ ns rest, nodes text.toList = .ok (ns, rest) ∧
      (Graph.ofNodes? ns = none ∧ load text = .error .outOfIds ∨
        ∃ g, Graph.ofNodes? ns = some g ∧
          (load text = .ok g ∨ load text = .error (.malformed .trailingCharacters))) := by
  unfold load
  cases hnodes : nodes text.toList with
  | error fault => exact .inl ⟨fault, rfl, rfl⟩
  | ok found =>
    obtain ⟨ns, rest⟩ := found
    refine .inr ⟨ns, rest, rfl, ?_⟩
    simp only
    cases graph : Graph.ofNodes? ns with
    | none => exact .inl ⟨rfl, rfl⟩
    | some g =>
      refine .inr ⟨g, rfl, ?_⟩
      simp only
      split
      · exact .inl rfl
      · exact .inr rfl

namespace Graph

theorem Initial.mark {g : Graph} (h : g.Initial) : g.mark.val.toNat = pastIds g.nodes := by
  cases h with
  | empty => rfl
  | @loaded text _ read =>
    obtain ⟨_, -, e⟩ | ⟨ns, _, -, ⟨-, e⟩ | ⟨h, graph, e | e⟩⟩ := Document.load_cases text <;>
      cases e.symm.trans read
    obtain ⟨rfl, past⟩ := ofNodes?_eq_some graph
    exact past

theorem Initial.sound {g : Graph} (h : g.Initial) : (Session.start g).Sound where
  past id hid := by
    obtain ⟨node, hnode, rfl⟩ := List.mem_map.mp hid
    have mark : (Session.start g).graph.mark.val.toNat = _ := h.mark
    rw [mark]
    exact toNat_lt_pastIds hnode
  stored _ hid := .inl hid

end Graph

/-! ### Fresh ids -/

/-- **Added nodes take fresh ids.** Let a session start with the graph without nodes or with that of
a document, and go through any edits. Adding a node now either stores it after the others, under an
id that is greater than all that were ever read, pushed or told, whether stored or not; or it stops
before anything is written, which happens when the mark is the greatest id or there are less than
two ids after the last stored one. Pushing a node either stores it or stops before anything is
written, which happens when it has the greatest id. With nodes put straight into the stored list,
the id of an added node is also greater than all that are stored, if the last stored one is not
below any of theirs. -/
theorem add_fresh {g : Graph} (initial : g.Initial) (edits : List Edit) :
    let s := (Session.start g).after edits
    (∀ domain kind inputs,
      (∃ id h, (InPlace.add domain kind inputs).run s.graph = (some id, h) ∧
        s.graph.add? domain kind inputs = some (id, h) ∧
        s.graph.Grows h ⟨id, domain, kind, inputs⟩ ∧ (∀ i ∈ s.given, i.val < id.val) ∧
        (s.Covered → ∀ i ∈ s.graph.ids, i.val < id.val)) ∨
      (InPlace.add domain kind inputs).run s.graph = (none, s.graph) ∧
        s.graph.add? domain kind inputs = none ∧
        (s.graph.mark = .greatest ∨
          ∃ last ∈ s.graph.nodes.getLast?, 4294967294 ≤ last.id.val.toNat)) ∧
    ∀ node,
      (∃ h, (InPlace.push node).run s.graph = (some (), h) ∧ s.graph.push? node = some h ∧
        s.graph.Grows h node) ∨
      (InPlace.push node).run s.graph = (none, s.graph) ∧ s.graph.push? node = none ∧
        node.id = .greatest := by
  intro s
  have sound : s.Sound := initial.sound.after edits
  refine ⟨fun domain kind inputs => ?_, fun node => ?_⟩
  · rw [InPlace.run_add]
    cases added : s.graph.add? domain kind inputs with
    | none => exact .inr ⟨rfl, rfl, Graph.add?_eq_none_iff.mp added⟩
    | some told =>
      obtain ⟨id, h⟩ := told
      exact .inl ⟨id, h, rfl, rfl, (Graph.add?_eq_some added).1, sound.given_lt added,
        sound.stored_lt added⟩
  · rw [InPlace.run_push]
    cases pushed : s.graph.push? node with
    | none => exact .inr ⟨rfl, rfl, Graph.push?_eq_none_iff.mp pushed⟩
    | some h => exact .inl ⟨h, rfl, rfl, Graph.push?_eq_some pushed⟩

/-- A document with two nodes is edited: a node is added under `n8` and taken out again, the order
is turned round, `n20` is pushed, all nodes are taken out, and `n30` is put straight into the list.
The node that is added then takes `n31`. -/
theorem add_fresh_editedGraph :
    let text := "[[\x7b\"id\":7,\"kind\":5\x7d,\x7b\"id\":3,\"kind\":5\x7d]]"
    let output (id : UInt32) : Node := ⟨⟨id⟩, .control, .valueOutput, []⟩
    ∃ g, Document.load text = .ok g ∧
      let s := (Session.start g).after [.add .control .valueOutput [⟨7⟩],
        .remove (·.filter fun node => node.id != ⟨8⟩) fun _ => List.filter_sublist,
        .reorder List.reverse List.reverse_perm, .push (output 20), .clear, .append (output 30)]
      s.given = [⟨20⟩, ⟨8⟩, ⟨7⟩, ⟨3⟩] ∧ s.graph.ids = [⟨30⟩] ∧ s.Covered ∧
      ∃ id h, s.graph.add? .control .valueOutput [] = some (id, h) ∧
        (∀ i ∈ s.given, i.val < id.val) ∧ ∀ i ∈ s.graph.ids, i.val < id.val := by
  intro text output
  have read : Document.load text = .ok ⟨[output 7, output 3], ⟨8⟩⟩ := by decide +kernel
  refine ⟨_, read, ?_⟩
  intro s
  have covered : s.Covered := by
    unfold Session.Covered
    decide
  refine ⟨rfl, rfl, covered, ?_⟩
  obtain ⟨id, h, -, added, -, given, stored⟩ | ⟨-, none, -⟩ :=
    (add_fresh (.loaded read) _).1 .control .valueOutput []
  · exact ⟨id, h, added, given, stored covered⟩
  · exact absurd none (by decide)

/-! ### When ids run out -/

/-- The graphs that are reached from an initial one by adding and pushing nodes. -/
inductive Graph.Grown : Graph → Prop where
  | initial {g : Graph} (h : g.Initial) : Grown g
  | add {g h : Graph} {domain : Domain} {kind : Kind} {inputs : List NodeId} {id : NodeId}
      (grown : Grown g) (added : g.add? domain kind inputs = some (id, h)) : Grown h
  | push {g h : Graph} {node : Node} (grown : Grown g) (pushed : g.push? node = some h) : Grown h

namespace Graph

theorem Grows.mark_eq {g h : Graph} {node : Node} (grows : g.Grows h node)
    (mark : g.mark.val.toNat = pastIds g.nodes) : h.mark.val.toNat = pastIds h.nodes := by
  rw [grows.mark, grows.nodes, pastIds_concat, mark]

/-- Without removals the mark is one past the greatest stored id. -/
theorem Grown.mark {g : Graph} (grown : g.Grown) : g.mark.val.toNat = pastIds g.nodes := by
  induction grown with
  | initial h => exact h.mark
  | add _ added ih => exact (add?_eq_some added).1.mark_eq ih
  | push _ pushed ih => exact (push?_eq_some pushed).mark_eq ih

theorem Grown.add?_eq_none_iff {g : Graph} (grown : g.Grown) (domain : Domain) (kind : Kind)
    (inputs : List NodeId) :
    g.add? domain kind inputs = none ↔ ∃ node ∈ g.nodes, node.id.val.toNat = 4294967294 := by
  have mark := grown.mark
  have bound := g.mark.val.toNat_lt
  rw [Graph.add?_eq_none_iff, NodeId.eq_greatest_iff, mark]
  constructor
  · rintro (full | ⟨last, hlast, high⟩)
    · exact exists_of_pastIds full
    · have stored := List.mem_of_getLast? hlast
      have below := toNat_lt_pastIds stored
      exact ⟨last, stored, by omega⟩
  · rintro ⟨node, stored, high⟩
    have below := toNat_lt_pastIds stored
    exact .inl (by omega)

/-- Without edits of the stored nodes the greatest id is not stored. -/
theorem Grown.toNat_lt {g : Graph} (grown : g.Grown) :
    ∀ id ∈ g.ids, id.val.toNat < 4294967295 := by
  intro id hid
  obtain ⟨node, stored, rfl⟩ := List.mem_map.mp hid
  have mark := grown.mark
  have bound := g.mark.val.toNat_lt
  have below := toNat_lt_pastIds stored
  omega

end Graph

/-- A text whose nodes make no graph is a document in which one of them has the greatest id. -/
theorem Document.load_eq_outOfIds_iff {text : String} :
    load text = .error .outOfIds ↔
      ∃ ns rest, nodes text.toList = .ok (ns, rest) ∧ ∃ node ∈ ns, node.id = .greatest := by
  simp only [← Graph.ofNodes?_eq_none_iff]
  obtain ⟨fault, hnodes, hload⟩ | ⟨ns, rest, hnodes, ⟨none, hload⟩ | ⟨g, graph, hload⟩⟩ :=
    load_cases text
  · rw [hnodes, hload]
    simp
  · exact iff_of_true hload ⟨ns, rest, hnodes, none⟩
  · refine iff_of_false ?_ ?_
    · rcases hload with hload | hload <;> rw [hload] <;> simp
    · rintro ⟨ns', rest', hnodes', none⟩
      cases hnodes.symm.trans hnodes'
      cases graph.symm.trans none

/-- **When the ids suffice.** A text gives a graph or the diagnostic `E0201` exactly when it is not
a document in which a node has the greatest id. On a graph that was reached by adding and pushing
nodes alone, a node can be added exactly when the id before the greatest one is not stored, and a
node can be pushed exactly when it does not have the greatest id. -/
theorem ids_suffice_iff {g : Graph} (grown : g.Grown) (text : String) :
    (((∃ h, Document.load text = .ok h) ∨
        ∃ fault, Document.load text = .error (.malformed fault) ∧
          fault.diagnostic.code.map (·.text) = some "E0201") ↔
      ¬∃ ns rest, Document.nodes text.toList = .ok (ns, rest) ∧
        ∃ node ∈ ns, node.id = .greatest) ∧
    (∀ domain kind inputs, (∃ id h, g.add? domain kind inputs = some (id, h)) ↔
      ∀ node ∈ g.nodes, node.id.val.toNat ≠ 4294967294) ∧
    ∀ node, (∃ h, g.push? node = some h) ↔ node.id ≠ .greatest := by
  refine ⟨?_, fun domain kind inputs => ?_, fun node => ?_⟩
  · rw [← Document.load_eq_outOfIds_iff]
    rcases Document.load text with (fault | _) | h
    · exact iff_of_true (.inr ⟨fault, rfl, rfl⟩) (by simp)
    · simp
    · exact iff_of_true (.inl ⟨h, rfl⟩) (by simp)
  · rw [← Prod.exists (p := fun told => g.add? domain kind inputs = some told),
      ← Option.ne_none_iff_exists', ne_eq, grown.add?_eq_none_iff]
    push Not
    rfl
  · rw [← Option.ne_none_iff_exists', ne_eq, Graph.push?_eq_none_iff]

/-- A graph and a document that take the ids up to the border: `n4294967293` is stored, so one node
more can be added, and the document has a node of the id before the greatest one. -/
theorem ids_suffice_border :
    let text := "\x7b\"nodes\":[\x7b\"id\":4294967294,\"kind\":\"value_output\"\x7d]\x7d"
    ∃ g, Graph.empty.push? ⟨⟨4294967293⟩, .control, .valueOutput, []⟩ = some g ∧
      (∃ id h, g.add? .control .valueOutput [] = some (id, h)) ∧
      (∃ h, g.push? ⟨⟨4294967294⟩, .control, .valueOutput, []⟩ = some h) ∧
      ((∃ h, Document.load text = .ok h) ∨
        ∃ fault, Document.load text = .error (.malformed fault) ∧
          fault.diagnostic.code.map (·.text) = some "E0201") := by
  intro text
  obtain ⟨g, hg⟩ : ∃ g, Graph.empty.push? ⟨⟨4294967293⟩, .control, .valueOutput, []⟩ = some g :=
    ⟨_, rfl⟩
  obtain ⟨load, add, push⟩ := ids_suffice_iff (.push (.initial .empty) hg) text
  refine ⟨g, hg, (add _ _ _).mpr ?_, (push _).mpr (by decide), load.mpr ?_⟩
  · rw [(Graph.push?_eq_some hg).nodes]
    decide
  · have nodes : Document.nodes text.toList =
        .ok ([⟨⟨4294967294⟩, .control, .valueOutput, []⟩], []) := by decide +kernel
    rintro ⟨ns, rest, nodes', greatest⟩
    cases nodes.symm.trans nodes'
    exact absurd greatest (by decide)

/-- Past the border: a document with a node of the greatest id is sound and gives neither a graph
nor a diagnostic, such a node cannot be pushed, and none can be added after the one before it. -/
theorem ids_wanting_greatest :
    Document.load "\x7b\"nodes\":[\x7b\"id\":4294967295,\"kind\":\"value_output\"\x7d]\x7d" =
      .error .outOfIds ∧
    Graph.empty.push? ⟨.greatest, .control, .valueOutput, []⟩ = none ∧
    ∃ g, Graph.empty.push? ⟨⟨4294967294⟩, .control, .valueOutput, []⟩ = some g ∧ g.Grown ∧
      g.add? .control .valueOutput [] = none := by
  refine ⟨by decide +kernel, by decide, ?_⟩
  obtain ⟨g, hg⟩ : ∃ g, Graph.empty.push? ⟨⟨4294967294⟩, .control, .valueOutput, []⟩ = some g :=
    ⟨_, rfl⟩
  have grown : g.Grown := .push (.initial .empty) hg
  refine ⟨g, hg, grown, (grown.add?_eq_none_iff _ _ _).mpr ?_⟩
  rw [(Graph.push?_eq_some hg).nodes]
  decide

end NodeGraph
