import Mathlib.Data.List.Nodup
import NodeGraph.Validity

/-!
# Valid graphs

Indexing a graph succeeds exactly when the graph is valid: no id is stored twice, and every input is
the id of a stored node (`index_eq_ok_iff`). Each of the two passes is described by what it ends
with. Placing the ids ends with a table of the first positions of all of them (`Index.Places`), or
at the first id that stood before (`Graph.FirstRepeat`); counting the inputs ends with a table of
their numbers (`Index.Counts`), or at the first input that no node has as its id
(`Graph.FirstDangling`).
-/

namespace NodeGraph

namespace Graph

/-- No id is stored twice and no input dangles. -/
structure Valid (g : Graph) : Prop where
  distinct : g.ids.Nodup
  closed : ∀ node ∈ g.nodes, ∀ i ∈ node.inputs, i ∈ g.ids

/-- The id at the position `again` stood at the position `first` before, and no position before
`again` has an id that stood before. -/
structure FirstRepeat (g : Graph) (id : NodeId) (first again : Nat) : Prop where
  earlier : first < again
  atFirst : g.ids[first]? = some id
  atAgain : g.ids[again]? = some id
  least : (g.ids.take again).Nodup

/-- The node is the first one in stored order with an input that no node has as its id, and
`missing` is the first such input of it. -/
structure FirstDangling (g : Graph) (node : Node) (missing : NodeId) : Prop where
  firstNode : ∃ before after, g.nodes = before ++ node :: after ∧
    ∀ n ∈ before, ∀ i ∈ n.inputs, i ∈ g.ids
  firstInput : ∃ before after, node.inputs = before ++ missing :: after ∧ ∀ i ∈ before, i ∈ g.ids
  dangles : missing ∉ g.ids

end Graph

/-! ### Placing the ids -/

namespace Index

/-- The table has the first position of each id of some nodes. -/
def Places (nodes : List Node) (placed : List (NodeId × Nat)) : Prop :=
  ∀ id, placed.lookup id = (nodes.map (·.id)).idxOf? id

theorem places_nil : Places [] [] := fun _ => rfl

theorem Places.lookup_eq_none_iff {nodes : List Node} {placed : List (NodeId × Nat)}
    (h : Places nodes placed) {id : NodeId} : placed.lookup id = none ↔ id ∉ nodes.map (·.id) := by
  rw [h id, List.idxOf?_eq_none_iff]

/-- A node whose id is new is placed after the others. -/
theorem Places.concat {nodes : List Node} {placed : List (NodeId × Nat)} (h : Places nodes placed)
    {node : Node} (new : placed.lookup node.id = none) :
    Places (nodes ++ [node]) ((node.id, nodes.length) :: placed) := by
  intro id
  rw [List.lookup_cons, List.map_append, List.idxOf?, List.findIdx?_append, ← List.idxOf?, ← h id]
  by_cases same : id = node.id
  · subst same
    simp [new]
  · have other : (id == node.id) = false := beq_false_of_ne same
    have other' : (node.id == id) = false := beq_false_of_ne (Ne.symm same)
    simp [other, other']

/-- **Placing the ids** of some nodes after others: all are new and have their places, or some of
them are and the next one stood before. -/
theorem place_cases {before : List Node} {placed : List (NodeId × Nat)} (h : Places before placed)
    (distinct : (before.map (·.id)).Nodup) (nodes : List Node) :
    (∃ all, place before.length placed nodes = .ok all ∧ Places (before ++ nodes) all ∧
      ((before ++ nodes).map (·.id)).Nodup) ∨
    ∃ new node after first, nodes = new ++ node :: after ∧
      ((before ++ new).map (·.id)).idxOf? node.id = some first ∧
      ((before ++ new).map (·.id)).Nodup ∧
      place before.length placed nodes =
        .error (.duplicateId node.id first (before ++ new).length) := by
  induction nodes generalizing before placed with
  | nil =>
    rw [List.append_nil]
    exact .inl ⟨placed, rfl, h, distinct⟩
  | cons node rest ih =>
    cases found : placed.lookup node.id with
    | some first =>
      refine .inr ⟨[], node, rest, first, rfl, ?_, ?_, ?_⟩
      · rw [List.append_nil, ← h node.id, found]
      · rw [List.append_nil]
        exact distinct
      · rw [place, found, List.append_nil]
    | none =>
      have new := h.lookup_eq_none_iff.mp found
      have distinct' : ((before ++ [node]).map (·.id)).Nodup := by
        rw [List.map_append, List.map_singleton, ← List.concat_eq_append]
        exact distinct.concat new
      have next := ih (h.concat found) distinct'
      rw [List.length_append, List.length_singleton] at next
      rw [place, found]
      simp only
      obtain ⟨all, placed', places, nodup⟩ | ⟨new, again, after, first, rfl, stood, nodup, stop⟩ :=
        next
      · rw [List.append_assoc] at places nodup
        exact .inl ⟨all, placed', places, nodup⟩
      · rw [List.append_assoc] at stood nodup stop
        exact .inr ⟨node :: new, again, after, first, rfl, stood, nodup, stop⟩

/-! ### Counting the inputs -/

/-- The table tells how often each id stands in a list. -/
def Counts (ids : List NodeId) (counts : List (NodeId × Nat)) : Prop :=
  ∀ id, (counts.lookup id).getD 0 = ids.count id

theorem counts_nil : Counts [] [] := fun _ => rfl

theorem Counts.countUp {ids : List NodeId} {counts : List (NodeId × Nat)} (h : Counts ids counts)
    (id : NodeId) : Counts (ids ++ [id]) (Index.countUp counts id) := by
  intro i
  rw [Index.countUp, List.lookup_cons, List.count_append, List.count_singleton, ← h i]
  by_cases same : i = id
  · subst same
    simp
  · have other : (i == id) = false := beq_false_of_ne same
    have other' : (id == i) = false := beq_false_of_ne (Ne.symm same)
    simp [other, other']

theorem Counts.foldl_countUp {ids : List NodeId} {counts : List (NodeId × Nat)}
    (h : Counts ids counts) (more : List NodeId) :
    Counts (ids ++ more) (more.foldl Index.countUp counts) := by
  induction more generalizing ids counts with
  | nil =>
    rw [List.append_nil]
    exact h
  | cons id more ih =>
    have next := ih (h.countUp id)
    rw [List.append_assoc] at next
    exact next

/-- **Counting the inputs** of some nodes: all have a place and are counted, or the first node with
one that has none is told, with the first such input. -/
theorem count_cases (placed : List (NodeId × Nat)) {ids : List NodeId}
    {counts : List (NodeId × Nat)} (h : Counts ids counts) (nodes : List Node) :
    (∃ all, count placed counts nodes = .ok all ∧ Counts (ids ++ nodes.flatMap (·.inputs)) all ∧
      ∀ node ∈ nodes, ∀ i ∈ node.inputs, placed.lookup i ≠ none) ∨
    ∃ before node after inputs missing others, nodes = before ++ node :: after ∧
      (∀ n ∈ before, ∀ i ∈ n.inputs, placed.lookup i ≠ none) ∧
      node.inputs = inputs ++ missing :: others ∧ (∀ i ∈ inputs, placed.lookup i ≠ none) ∧
      placed.lookup missing = none ∧
      count placed counts nodes = .error (.danglingInput node.id missing) := by
  induction nodes generalizing ids counts with
  | nil =>
    rw [List.flatMap_nil, List.append_nil]
    exact .inl ⟨counts, rfl, h, fun _ hn => (nomatch hn)⟩
  | cons node rest ih =>
    rw [count]
    cases found : node.inputs.find? fun input => (placed.lookup input).isNone with
    | some missing =>
      obtain ⟨isMissing, inputs, others, split, isPlaced⟩ := List.find?_eq_some_iff_append.mp found
      refine .inr ⟨[], node, rest, inputs, missing, others, rfl, fun _ hn => (nomatch hn), split,
        fun i hi none => ?_, Option.isNone_iff_eq_none.mp isMissing, rfl⟩
      have := isPlaced i hi
      rw [none] at this
      cases this
    | none =>
      have closed : ∀ i ∈ node.inputs, placed.lookup i ≠ none := by
        intro i hi none
        have := List.find?_eq_none.mp found i hi
        rw [none] at this
        exact this rfl
      simp only
      obtain ⟨all, counted, table, others⟩ |
        ⟨before, bad, after, inputs, missing, more, rfl, earlier, stop⟩ :=
        ih (h.foldl_countUp node.inputs)
      · rw [List.append_assoc, ← List.flatMap_cons] at table
        refine .inl ⟨all, counted, table, fun n hn => ?_⟩
        rcases List.mem_cons.mp hn with rfl | hn
        · exact closed
        · exact others n hn
      · refine .inr ⟨node :: before, bad, after, inputs, missing, more, rfl, fun n hn => ?_, stop⟩
        rcases List.mem_cons.mp hn with rfl | hn
        · exact closed
        · exact earlier n hn

end Index

/-! ### Indexing -/

namespace Graph

/-- **Indexing a graph** ends in one of three ways: with the tables of a valid graph, at the first
id that stood before, or, when no id repeats, at the first input that dangles. -/
theorem index_cases (g : Graph) :
    (∃ positions counts, g.index = .ok ⟨g.nodes, positions, counts⟩ ∧ g.Valid ∧
      Index.Places g.nodes positions ∧ Index.Counts (g.nodes.flatMap (·.inputs)) counts) ∨
    (∃ id first again, g.index = .error (.duplicateId id first again) ∧
      g.FirstRepeat id first again) ∨
    ∃ node missing, g.index = .error (.danglingInput node.id missing) ∧ g.ids.Nodup ∧
      g.FirstDangling node missing := by
  have placing := Index.place_cases Index.places_nil List.nodup_nil g.nodes
  simp only [List.nil_append, List.length_nil] at placing
  obtain ⟨placed, ok, places, distinct⟩ | ⟨before, node, after, first, split, stood, least, stop⟩ :=
    placing
  · have mem {i : NodeId} : placed.lookup i ≠ none ↔ i ∈ g.ids := by
      rw [Ne, places.lookup_eq_none_iff, not_not]
      rfl
    obtain ⟨counts, counted, table, closed⟩ |
      ⟨before, node, after, inputs, missing, others, split, earlier, split', earlier', dangles,
        stop⟩ := Index.count_cases placed Index.counts_nil g.nodes
    · refine .inl ⟨placed, counts, ?_, ⟨distinct, fun n hn i hi => mem.mp (closed n hn i hi)⟩,
        places, table⟩
      simp only [index, ok, counted, bind, Except.bind, pure, Except.pure]
    · refine .inr (.inr ⟨node, missing, ?_, distinct,
        ⟨before, after, split, fun n hn i hi => mem.mp (earlier n hn i hi)⟩,
        ⟨inputs, others, split', fun i hi => mem.mp (earlier' i hi)⟩, fun h => mem.mpr h dangles⟩)
      simp only [index, ok, stop, bind, Except.bind]
  · obtain ⟨position, atFirst, -⟩ := List.idxOf?_eq_some_iff.mp stood
    have ids : g.ids = before.map (·.id) ++ node.id :: after.map (·.id) := by
      simp [Graph.ids, split]
    have length : before.length = (before.map (·.id)).length := (List.length_map _).symm
    refine .inr (.inl ⟨node.id, first, before.length, ?_, ?_, ?_, ?_, ?_⟩)
    · simp only [index, stop, bind, Except.bind]
    · exact length ▸ position
    · rw [ids, List.getElem?_append_left position, List.getElem?_eq_getElem position, atFirst]
    · rw [ids, length, List.getElem?_append_right (Nat.le_refl _), Nat.sub_self]
      rfl
    · rw [ids, length, List.take_left]
      exact least

theorem FirstRepeat.not_nodup {g : Graph} {id : NodeId} {first again : Nat}
    (h : g.FirstRepeat id first again) : ¬g.ids.Nodup := by
  intro distinct
  obtain ⟨hfirst, atFirst⟩ := List.getElem?_eq_some_iff.mp h.atFirst
  obtain ⟨hagain, atAgain⟩ := List.getElem?_eq_some_iff.mp h.atAgain
  exact Nat.ne_of_lt h.earlier
    ((List.Nodup.getElem_inj_iff distinct).mp (atFirst.trans atAgain.symm))

theorem FirstDangling.exists_dangling {g : Graph} {node : Node} {missing : NodeId}
    (h : g.FirstDangling node missing) : ∃ n ∈ g.nodes, ∃ i ∈ n.inputs, i ∉ g.ids := by
  obtain ⟨before, after, split, -⟩ := h.firstNode
  obtain ⟨inputs, others, split', -⟩ := h.firstInput
  exact ⟨node, by simp [split], missing, by simp [split'], h.dangles⟩

theorem index_eq_ok_iff (g : Graph) : (∃ index, g.index = .ok index) ↔ g.Valid := by
  obtain ⟨positions, counts, ok, valid, -⟩ | ⟨id, first, again, stop, repeated⟩ |
    ⟨node, missing, stop, -, dangling⟩ := g.index_cases
  · exact iff_of_true ⟨_, ok⟩ valid
  · refine iff_of_false ?_ fun valid => repeated.not_nodup valid.distinct
    rintro ⟨index, ok⟩
    cases stop.symm.trans ok
  · refine iff_of_false ?_ fun valid => ?_
    · rintro ⟨index, ok⟩
      cases stop.symm.trans ok
    · obtain ⟨n, hn, i, hi, dangles⟩ := dangling.exists_dangling
      exact dangles (valid.closed n hn i hi)

theorem check_eq_ok_iff (g : Graph) : g.check = .ok () ↔ g.Valid := by
  rw [← index_eq_ok_iff, check]
  cases g.index <;> simp [Except.map]

/-- In a valid graph a stored node is found by its id. -/
theorem Valid.node?_eq_some {g : Graph} (h : g.Valid) {node : Node} (hn : node ∈ g.nodes) :
    g.node? node.id = some node := by
  obtain ⟨found, hfound⟩ : ∃ found, g.node? node.id = some found := by
    rw [← Option.isSome_iff_exists, node?, List.find?_isSome]
    exact ⟨node, hn, beq_self_eq_true _⟩
  have same : found.id = node.id := by simpa using List.find?_some hfound
  have stored : found ∈ g.nodes := List.mem_of_find?_eq_some hfound
  rw [hfound, List.inj_on_of_nodup_map h.distinct stored hn same]

theorem Valid.node?_eq_some_iff {g : Graph} (h : g.Valid) {id : NodeId} {node : Node} :
    g.node? id = some node ↔ node ∈ g.nodes ∧ node.id = id := by
  constructor
  · intro found
    exact ⟨List.mem_of_find?_eq_some found, by simpa using List.find?_some found⟩
  · rintro ⟨stored, rfl⟩
    exact h.node?_eq_some stored

/-- The tables find the nodes that the graph finds. -/
theorem node?_of_places {g : Graph} {positions : List (NodeId × Nat)}
    (places : Index.Places g.nodes positions) (counts : List (NodeId × Nat)) (id : NodeId) :
    (Index.mk g.nodes positions counts).node? id = g.node? id := by
  rw [Index.node?, places id, node?, List.find?_eq_bind_findIdx?_getElem?, List.idxOf?,
    List.findIdx?_map]
  rfl

end Graph

/-- **Indexing decides validity and tells the first fault.** It succeeds exactly on the graphs whose
ids are distinct and whose inputs are ids of stored nodes. When an id repeats it fails with `E0101`
at the first node whose id stood before, and the cause gives the two positions; whether inputs
dangle does not matter then. When no id repeats and an input dangles it fails with `E0102` at the
first node with such an input, and the message names the first such input of the node. When it
succeeds, the node with an id is the only stored one that has it, and the count of an id is how
often it stands in all lists of inputs. -/
theorem index_faithful (g : Graph) :
    ((∃ index, g.index = .ok index) ↔
      g.ids.Nodup ∧ ∀ node ∈ g.nodes, ∀ i ∈ node.inputs, i ∈ g.ids) ∧
    (¬g.ids.Nodup → ∃ id first again fault, g.FirstRepeat id first again ∧
      g.index = .error fault ∧ fault.diagnostic.code.map (·.text) = some "E0101" ∧
      fault.diagnostic.node = some id ∧
      fault.diagnostic.causes = [⟨"first defined at position " ++ toString first ++ ", again at " ++
        toString again, none⟩]) ∧
    (g.ids.Nodup → (∃ n ∈ g.nodes, ∃ i ∈ n.inputs, i ∉ g.ids) →
      ∃ node missing fault, g.FirstDangling node missing ∧
      g.index = .error fault ∧ fault.diagnostic.code.map (·.text) = some "E0102" ∧
      fault.diagnostic.node = some node.id ∧
      fault.diagnostic.message =
        node.id.text ++ " takes input from unknown node " ++ missing.text) ∧
    ∀ index, g.index = .ok index → ∀ id,
      (∀ node, index.node? id = some node ↔ node ∈ g.nodes ∧ node.id = id) ∧
      (index.node? id = none ↔ ∀ node ∈ g.nodes, node.id ≠ id) ∧
      index.fanOut id = (g.nodes.flatMap (·.inputs)).count id := by
  refine ⟨?_, ?_, ?_, ?_⟩
  · rw [g.index_eq_ok_iff]
    exact ⟨fun valid => ⟨valid.distinct, valid.closed⟩, fun h => ⟨h.1, h.2⟩⟩
  · intro repeats
    obtain ⟨_, _, _, valid, -⟩ | ⟨id, first, again, stop, repeated⟩ | ⟨_, _, _, distinct, -⟩ :=
      g.index_cases
    · exact absurd valid.distinct repeats
    · exact ⟨id, first, again, _, repeated, stop, rfl, rfl, rfl⟩
    · exact absurd distinct repeats
  · rintro distinct ⟨n, hn, i, hi, dangles⟩
    obtain ⟨_, _, _, valid, -⟩ | ⟨_, _, _, _, repeated⟩ | ⟨node, missing, stop, -, dangling⟩ :=
      g.index_cases
    · exact absurd (valid.closed n hn i hi) dangles
    · exact absurd distinct repeated.not_nodup
    · exact ⟨node, missing, _, dangling, stop, rfl, rfl, rfl⟩
  · intro index ok id
    obtain ⟨positions, counts, ok', valid, places, table⟩ | ⟨_, _, _, stop, -⟩ |
      ⟨_, _, stop, -⟩ := g.index_cases
    · cases ok.symm.trans ok'
      have found := Graph.node?_of_places places counts id
      refine ⟨fun node => ?_, ?_, table id⟩
      · rw [found, valid.node?_eq_some_iff]
      · rw [found, Graph.node?, List.find?_eq_none]
        simp
    · cases ok.symm.trans stop
    · cases ok.symm.trans stop

/-- A graph in which `n7` and `n4` repeat, and inputs dangle before and after that. -/
def faultyGraph : Graph :=
  let node (id : UInt32) (inputs : List UInt32) : Node :=
    ⟨⟨id⟩, .control, .math "add" [], inputs.map NodeId.mk⟩
  ⟨[node 4 [7, 9], node 7 [4, 7, 4], node 5 [], node 7 [4, 8], node 4 []], .first⟩

/-- Of `faultyGraph` the repeat of `n7` is told, of its first three nodes an input that dangles, and
once `n4` takes no inputs these three have an index. -/
theorem index_faithful_faultyGraph :
    let three : Graph := ⟨faultyGraph.nodes.take 3, .first⟩
    (∃ first again fault, faultyGraph.FirstRepeat ⟨7⟩ first again ∧
      faultyGraph.index = .error fault ∧
      fault.diagnostic.code.map (·.text) = some "E0101") ∧
    (∃ node missing fault, three.FirstDangling node missing ∧ three.index = .error fault ∧
      fault.diagnostic.code.map (·.text) = some "E0102") ∧
    ∃ index, (three.rewire ⟨4⟩ []).index = .ok index ∧ index.node? ⟨9⟩ = none ∧
      index.fanOut ⟨4⟩ = 2 := by
  intro three
  refine ⟨?_, ?_, ?_⟩
  · obtain ⟨id, first, again, fault, repeated, stop, code, about, -⟩ :=
      (index_faithful faultyGraph).2.1 (by decide +kernel)
    have told : faultyGraph.index = .error (.duplicateId ⟨7⟩ 1 3) := by decide +kernel
    cases stop.symm.trans told
    cases about
    exact ⟨first, again, _, repeated, stop, code⟩
  · obtain ⟨node, missing, fault, dangling, stop, code, -⟩ :=
      (index_faithful three).2.2.1 (by decide +kernel) (by decide +kernel)
    exact ⟨node, missing, fault, dangling, stop, code⟩
  · obtain ⟨index, ok⟩ := (index_faithful (three.rewire ⟨4⟩ [])).1.mpr (by decide +kernel)
    have reads := (index_faithful (three.rewire ⟨4⟩ [])).2.2.2 index ok
    refine ⟨index, ok, (reads ⟨9⟩).2.1.mpr (by decide +kernel), ?_⟩
    rw [(reads ⟨4⟩).2.2]
    decide +kernel

end NodeGraph
