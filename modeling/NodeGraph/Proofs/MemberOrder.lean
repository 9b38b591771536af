import Mathlib.Logic.Relation
import NodeGraph.Proofs.Entries
import NodeGraph.Proofs.FreshIds

/-!
# The order of the members of a node

The members of a node object stand between its brackets with commas between them, and what is one of
them can be told by a scanner (`Whole`), without knowing what a node is. A document says where its
node objects are: they are the elements of the list under the key `nodes`, or of the first element
of the list that the document is (`BeforeNode`, `NodeObject`). Every node of a graph that was loaded
is written in such a place, and the members in each of them may be put in another order, known or
not known, with any blanks around them (`Reorders`): the same graph is loaded (`load_reordered`).

The members of a reordered object are the same pieces of text, so they are the same entries
(`Run.split`, `Run.join`), and the order of the entries does not count (`Gathers.of_perm`).
-/

namespace NodeGraph.Document

/-! ### Node objects -/

/-- An object, of its members as they stand between the commas. -/
def objectOf (members : List (List Char)) : List Char :=
  '\x7b' :: ([','].intercalate members ++ ['\x7d'])

/-- The members of two objects are the same, but for their order and the blanks around them. -/
def SameMembers (members members' : List (List Char)) : Prop :=
  (members.map trim).Perm (members'.map trim)

instance (members members' : List (List Char)) : Decidable (SameMembers members members') :=
  inferInstanceAs (Decidable (List.Perm _ _))

/-- An object is the same node when its members are reordered. -/
theorem node_sameMembers {ms ms' : List (List Char)} (whole : ∀ m ∈ ms, Whole m)
    (same : SameMembers ms ms') {back rest : List Char} {n : Node}
    (read : node (objectOf ms ++ back) = .ok (n, rest)) :
    node (objectOf ms' ++ back) = .ok (n, rest) := by
  have opened (ms : List (List Char)) : skipBlanks (objectOf ms ++ back) =
      '\x7b' :: ([','].intercalate ms ++ '\x7d' :: back) := by
    simp [objectOf, skipBlanks_cons (show isBlank '\x7b' = false from rfl)]
  obtain ⟨inside, es, draft, e, run, gathers, finished⟩ := node_eq_ok_iff.mp read
  cases (opened ms).symm.trans e
  by_cases empty : ms = []
  · -- Without members both are the same text.
    subst empty
    have empty' : ms' = [] := by simpa [SameMembers] using same.symm
    rwa [empty']
  · have some' : ms' ≠ [] := by
      rintro rfl
      exact empty (by simpa [SameMembers] using same)
    rw [← List.cons_append, comma_intercalate empty] at run
    obtain ⟨first, others, rfl, pieces, closed⟩ :=
      run.split (regular_keyed regular_entryOf) (.inr rfl) whole rfl
    obtain ⟨first', pieces', perm⟩ := List.perm_comp_forall₂ same.symm pieces
    obtain ⟨set, setPerm, gathers'⟩ := gathers.of_perm (perm.symm.append_right others)
    refine node_eq_ok_iff.mpr ⟨_, _, _, opened ms', ?_, gathers', finish_of_perm setPerm finished⟩
    rw [← List.cons_append, comma_intercalate some']
    exact closed.join pieces' rfl

/-- Where a node is read, there is an object. -/
theorem exists_objectOf {c : Char} {start rest : List Char} {n : Node}
    (solid : isBlank c = false) (read : node (c :: start) = .ok (n, rest)) :
    ∃ members, (∀ m ∈ members, Whole m) ∧ c :: start = objectOf members ++ rest := by
  obtain ⟨inside, es, draft, opened, run, gathers, finished⟩ := node_eq_ok_iff.mp read
  rw [skipBlanks_cons solid] at opened
  have some : es ≠ [] := by
    rintro rfl
    cases gathers_nil.mp gathers
    cases finished
  obtain ⟨members, whole, rfl⟩ :=
    run.exists_intercalate (regular_keyed regular_entryOf) (.inr rfl) some
  exact ⟨members, whole, by rw [opened]; simp [objectOf]⟩

/-! ### Documents -/

/-- The text goes up to the list of the nodes of a document. -/
inductive BeforeNodes : List Char → Prop where
  /-- In an object: other members may come first, then comes the key of the nodes. -/
  | object {blanks gap gap' gap'' key : List Char} {members : List (List Char)}
      (all : Blanks blanks) (whole : ∀ m ∈ members, Whole m) (before : Blanks gap)
      (nodes : string key = .ok ("nodes", [])) (between : Blanks gap') (behind : Blanks gap'') :
      BeforeNodes (blanks ++ '\x7b' :: (followed members ++
        (gap ++ '"' :: (key ++ (gap' ++ ':' :: gap'')))))
  /-- In a list: it is the first element. -/
  | list {blanks gap : List Char} (all : Blanks blanks) (before : Blanks gap) :
      BeforeNodes (blanks ++ '[' :: gap)

/-- The text goes up to the `i`-th node of a document. -/
inductive BeforeNode : Nat → List Char → Prop where
  | node {lead gap : List Char} {nodes : List (List Char)} (before : BeforeNodes lead)
      (whole : ∀ n ∈ nodes, Whole n) (blanks : Blanks gap) :
      BeforeNode nodes.length (lead ++ '[' :: (followed nodes ++ gap))

/-- The `i`-th node of a document is written as an object with these members. -/
structure NodeObject (i : Nat) (text lead : List Char) (members : List (List Char))
    (back : List Char) : Prop where
  before : BeforeNode i lead
  whole : ∀ m ∈ members, Whole m
  written : text = lead ++ (objectOf members ++ back)

/-- One of the node objects of a document has its members reordered. -/
def Reorders (text text' : List Char) : Prop :=
  ∃ i lead members back members', NodeObject i text lead members back ∧
    SameMembers members members' ∧ text' = lead ++ (objectOf members' ++ back)

/-- The list of the nodes is read the same. -/
theorem items_sameMembers {gap back rest : List Char} {texts ms ms' : List (List Char)}
    {ns : List Node} (whole : ∀ n ∈ texts, Whole n) (blanks : Blanks gap)
    (whole' : ∀ m ∈ ms, Whole m) (same : SameMembers ms ms')
    (read : items node (followed texts ++ (gap ++ (objectOf ms ++ back))) = .ok (ns, rest)) :
    items node (followed texts ++ (gap ++ (objectOf ms' ++ back))) = .ok (ns, rest) := by
  have opens (ms : List (List Char)) : skipBlanks (gap ++ (objectOf ms ++ back)) =
      '\x7b' :: ([','].intercalate ms ++ ['\x7d'] ++ back) := by
    rw [skipBlanks_append blanks]
    exact skipBlanks_cons rfl _
  rw [items_eq_ok_iff regular_node] at read ⊢
  have run := read.run (.inl rfl) whole (opens ms) (by decide)
  have replaced := run.replace regular_node (.inl rfl) whole (opens ms) (opens ms')
    fun n between => node_sameMembers whole' same
  refine .inr ?_
  rw [comma_followed]
  exact replaced

/-- The member of a document that holds its nodes. -/
theorem keyed_nodes {key gap gap' : List Char} (nodes : string key = .ok ("nodes", []))
    (between : Blanks gap) (behind : Blanks gap') (inside : List Char) :
    keyed documentEntry ('"' :: (key ++ (gap ++ ':' :: (gap' ++ '[' :: inside)))) =
      items node inside >>= fun read => .ok (some read.1, read.2) := by
  have delimited : Delimited (gap ++ ':' :: (gap' ++ '[' :: inside)) :=
    delimited_blanks between (by rintro c ⟨⟩; rfl)
  have key_eq : string (key ++ (gap ++ ':' :: (gap' ++ '[' :: inside))) =
      .ok ("nodes", gap ++ ':' :: (gap' ++ '[' :: inside)) := by
    obtain ⟨taken, e, -, again⟩ := regular_string _ _ _ nodes
    rw [List.append_nil] at e
    rw [e]
    exact again _ (.inl delimited)
  have colon_eq : colon (gap ++ ':' :: (gap' ++ '[' :: inside)) = .ok (gap' ++ '[' :: inside) := by
    unfold colon
    rw [skipBlanks_append between]
    rfl
  have list_eq : listOf node (gap' ++ '[' :: inside) = items node inside := by
    unfold listOf
    rw [skipBlanks_append behind]
    rfl
  rw [keyed, key_eq]
  change documentEntry "nodes" _ = _
  rw [documentEntry, if_pos rfl, afterColon, colon_eq]
  change listOf node _ >>= _ = _
  rw [list_eq]

/-- The nodes in the list form of a document. -/
theorem nodes_list {blanks gap : List Char} (all : Blanks blanks) (before : Blanks gap)
    (inside : List Char) : nodes (blanks ++ '[' :: (gap ++ '[' :: inside)) =
      items node inside >>= fun read => listEnd read.2 >>= fun rest => .ok (read.1, rest) := by
  have opens : skipBlanks (blanks ++ '[' :: (gap ++ '[' :: inside)) =
      '[' :: (gap ++ '[' :: inside) := by
    rw [skipBlanks_append all]
    exact skipBlanks_cons rfl _
  have opens' : skipBlanks (gap ++ '[' :: inside) = '[' :: inside := by
    rw [skipBlanks_append before]
    exact skipBlanks_cons rfl _
  unfold nodes
  rw [opens]
  simp only [opens']
  rfl

/-- The nodes in the object form of a document: the entries of its members give them once. -/
theorem nodes_object {blanks inside rest : List Char} {ns : List Node} (all : Blanks blanks) :
    nodes (blanks ++ '\x7b' :: inside) = .ok (ns, rest) ↔
      ∃ es, Inside '\x7d' (keyed documentEntry) inside es rest ∧
        es.foldlM addNodes none = some (some ns) := by
  have opens : skipBlanks (blanks ++ '\x7b' :: inside) = '\x7b' :: inside := by
    rw [skipBlanks_append all]
    exact skipBlanks_cons rfl _
  have read_eq : nodes (blanks ++ '\x7b' :: inside) = .ok (ns, rest) ↔
      members graphMember none inside = .ok (some ns, rest) := by
    unfold nodes
    simp only [opens]
    constructor
    · intro read
      rw [bind_eq_ok] at read
      obtain ⟨⟨_ | ns', between⟩, hm, read⟩ := read
      · cases read
      · cases read
        exact hm
    · intro hm
      exact bind_eq_ok.mpr ⟨(some ns, rest), hm, rfl⟩
  rw [read_eq, members_eq_ok_iff adds_graphMember regular_documentEntry]

theorem nodes_reorders {text text' rest : List Char} {ns : List Node} (h : Reorders text text')
    (read : nodes text = .ok (ns, rest)) : nodes text' = .ok (ns, rest) := by
  obtain ⟨i, lead, ms, back, ms', ⟨⟨before, whole, blanks⟩, whole', rfl⟩, same, rfl⟩ := h
  cases before with
  | list all before =>
    simp only [List.append_assoc, List.cons_append] at read ⊢
    rw [nodes_list all before, bind_eq_ok] at read ⊢
    obtain ⟨⟨ns', between⟩, first, read⟩ := read
    exact ⟨(ns', between), items_sameMembers whole blanks whole' same first, read⟩
  | object all whole'' before nodes between behind =>
    simp only [List.append_assoc, List.cons_append] at read ⊢
    rw [nodes_object all] at read ⊢
    obtain ⟨es, inside, added⟩ := read
    have opens (inside : List Char) := skipBlanks_append before ('"' :: inside)
    have run := inside.run (.inr rfl) whole'' (opens _) (by decide)
    refine ⟨es, .inr ?_, added⟩
    rw [comma_followed]
    have regular := regular_keyed regular_documentEntry
    refine run.replace regular (.inr rfl) whole'' (opens _) (opens _) fun e between' => ?_
    rw [keyed_nodes nodes between behind, keyed_nodes nodes between behind, bind_eq_ok, bind_eq_ok]
    rintro ⟨⟨ns', back⟩, read, e⟩
    exact ⟨(ns', back), items_sameMembers whole blanks whole' same read, e⟩

theorem nodes_of_reorders {text text' rest : List Char} {ns : List Node}
    (h : Relation.ReflTransGen Reorders text text') (read : nodes text = .ok (ns, rest)) :
    nodes text' = .ok (ns, rest) := by
  induction h with
  | refl => exact read
  | tail _ step ih => exact nodes_reorders step ih

/-- The nodes of a document were given by one of its entries. -/
theorem mem_of_foldlM_addNodes {es : List (Option (List Node))} {nodes : Option (List Node)}
    {ns : List Node} (h : es.foldlM addNodes nodes = some (some ns)) :
    nodes = some ns ∨ some ns ∈ es := by
  induction es generalizing nodes with
  | nil => exact .inl (Option.some.inj h)
  | cons e es ih =>
    obtain ⟨nodes', added, h⟩ := foldlM_cons_eq_some.mp h
    rcases ih h with rfl | mem
    · cases e with
      | none => exact .inl (Option.some.inj added)
      | some ns' =>
        simp only [addNodes] at added
        split at added
        · cases added
        · cases added
          exact .inr List.mem_cons_self
    · exact .inr (List.mem_cons_of_mem _ mem)

theorem exists_colon {text rest : List Char} (h : colon text = .ok rest) :
    ∃ gap, Blanks gap ∧ text = gap ++ ':' :: rest := by
  unfold colon at h
  split at h
  · cases h
  · rename_i opens
    cases h
    exact (skipBlanks_eq_cons opens).1
  · cases h

/-- Where a list is read, there is its bracket. -/
theorem exists_listOf {text rest : List Char} {ns : List Node}
    (read : listOf node text = .ok (ns, rest)) :
    ∃ gap inside, Blanks gap ∧ text = gap ++ '[' :: inside ∧
      items node inside = .ok (ns, rest) := by
  unfold listOf at read
  split at read
  · cases read
  · rename_i inside opens
    obtain ⟨⟨gap, all, e⟩, -⟩ := skipBlanks_eq_cons opens
    exact ⟨gap, inside, all, e, read⟩
  · cases read

/-- A member that gives the nodes has their key, and then a list. -/
theorem exists_key {c : Char} {start rest : List Char} {ns : List Node}
    (read : keyed documentEntry (c :: start) = .ok (some ns, rest)) :
    ∃ key gap gap' inside, string key = .ok ("nodes", []) ∧ Blanks gap ∧ Blanks gap' ∧
      c :: start = '"' :: (key ++ (gap ++ ':' :: (gap' ++ '[' :: inside))) ∧
        items node inside = .ok (ns, rest) := by
  rw [keyed_eq_ok] at read
  obtain ⟨start, key, between, e, hk, read⟩ := read
  obtain ⟨text, rfl, -, again⟩ := regular_string _ _ _ hk
  have alone := again [] (.inl (by simp [Delimited]))
  rw [List.append_nil] at alone
  unfold documentEntry at read
  split at read
  · rename_i isNodes
    rw [map_afterColon_eq_ok] at read
    obtain ⟨_, read, ⟨⟩⟩ := read
    rw [afterColon, bind_eq_ok] at read
    obtain ⟨between', hc, read⟩ := read
    obtain ⟨gap, all, rfl⟩ := exists_colon hc
    obtain ⟨gap', inside, all', rfl, list⟩ := exists_listOf read
    exact ⟨text, gap, gap', inside, isNodes ▸ alone, all, all', e, list⟩
  · rw [bind_eq_ok] at read
    obtain ⟨_, _, ⟨⟩⟩ := read

/-- Every document that is read has the list of its nodes. -/
theorem exists_beforeNodes {text rest : List Char} {ns : List Node}
    (read : nodes text = .ok (ns, rest)) :
    ∃ lead inside between, BeforeNodes lead ∧ text = lead ++ '[' :: inside ∧
      items node inside = .ok (ns, between) := by
  have nodes_eq := read
  unfold nodes at read
  split at read
  · cases read
  · rename_i opens
    obtain ⟨⟨blanks, all, rfl⟩, -⟩ := skipBlanks_eq_cons opens
    obtain ⟨es, inside, added⟩ := (nodes_object all).mp nodes_eq
    have mem : some ns ∈ es := (mem_of_foldlM_addNodes added).resolve_left (by simp)
    obtain ⟨first, others, rfl⟩ := List.append_of_mem mem
    have run := inside.resolve_left (by simp)
    obtain ⟨members, gap, c, start, between, whole, -, before, rfl, -, read⟩ :=
      run.exists_followed (regular_keyed regular_documentEntry) (.inr rfl)
    obtain ⟨key, gap', gap'', inside, hk, behind, behind', e, read⟩ := exists_key read
    exact ⟨_, inside, between, .object all whole before hk behind behind', by simp [e], read⟩
  · rename_i inside opens
    obtain ⟨⟨blanks, all, rfl⟩, -⟩ := skipBlanks_eq_cons opens
    split at read
    · cases read
    · cases read
    · rw [bind_eq_ok] at read
      obtain ⟨⟨ns', between⟩, first, read⟩ := read
      rw [bind_eq_ok] at read
      obtain ⟨rest', -, read⟩ := read
      cases read
      obtain ⟨gap, before, e⟩ := exists_skipBlanks inside
      obtain ⟨gap', list, before', e', items⟩ := exists_listOf first
      rw [e'] at e
      exact ⟨_, list, between, .list all (before.append before'), by simp [e], items⟩
  · cases read

/-- Every node that is read is written as an object. -/
theorem exists_nodeObject {text rest : List Char} {ns : List Node}
    (read : nodes text = .ok (ns, rest)) {i : Nat} (hi : i < ns.length) :
    ∃ lead members back, NodeObject i text lead members back := by
  obtain ⟨lead, inside, between, before, rfl, list⟩ := exists_beforeNodes read
  have run := ((items_eq_ok_iff regular_node).mp list).resolve_left (by rintro ⟨rfl, -⟩; cases hi)
  have split : ns = ns.take i ++ ns[i] :: ns.drop (i + 1) := by simp
  rw [split] at run
  obtain ⟨texts, gap, c, start, back, whole, length, blanks, rfl, solid, read⟩ :=
    run.exists_followed regular_node (.inl rfl)
  obtain ⟨members, whole', e⟩ := exists_objectOf solid read
  have count : texts.length = i := by
    rw [length, List.length_take]
    omega
  have place : BeforeNode i (lead ++ '[' :: (followed texts ++ gap)) := by
    rw [← count]
    exact .node before whole blanks
  exact ⟨_, members, back, place, whole', by simp [e]⟩

/-- Each node of a document that loads is written as an object, and the members of these objects can
be put in any order, in as many objects as one likes, with any blanks around them: the text loads
as the same graph then, with the same mark. -/
theorem load_reordered {text : String} {g : Graph} (loaded : load text = .ok g) :
    (∀ i < g.nodes.length, ∃ lead members back, NodeObject i text.toList lead members back) ∧
      ∀ text' : String, Relation.ReflTransGen Reorders text.toList text'.toList →
        load text' = .ok g := by
  obtain ⟨fault, -, e⟩ | ⟨ns, rest, read, ⟨-, e⟩ | ⟨h, graph, e | e⟩⟩ := load_cases text
  · cases loaded.symm.trans e
  · cases loaded.symm.trans e
  · cases loaded.symm.trans e
    refine ⟨fun i hi => ?_, fun text' reorders => ?_⟩
    · rw [(Graph.ofNodes?_eq_some graph).1] at hi
      exact exists_nodeObject read hi
    · rw [← loaded]
      unfold load
      rw [read, nodes_of_reorders reorders read]
  · cases loaded.symm.trans e

/-- The first node of a document. -/
def noteNode : List Char := objectOf (["\"id\":0", "\"kind\":5"].map String.toList)

/-- The document, with a note in it, up to its second node. -/
def noteLead : List Char :=
  [] ++ '\x7b' :: (followed ["\"note\":[\"\x7d, \"]".toList] ++
      ([' '] ++ '"' :: ("nodes\"".toList ++ ([] ++ ':' :: [' '])))) ++
    '[' :: (followed [noteNode] ++ [' '])

/-- The members of its second node. They start with one that nobody asks for, and with a name whose
kind is not known yet. -/
def scatteredMembers : List (List Char) :=
  ["\"x\":\x7b\"y\":\",\"\x7d", "\"name\":\"t\"", "\"id\":1", "\"kind\":\"input\""].map
    String.toList

/-- The same members in another order, each on a line of its own. -/
def tidyMembers : List (List Char) :=
  ["\n\"id\":1", "\n\"kind\":\"input\"", "\n\"name\":\"t\"", "\n\"x\":\x7b\"y\":\",\"\x7d\n"].map
    String.toList

/-- The document with the members of its second node. -/
def noteDocument (members : List (List Char)) : String :=
  String.ofList (noteLead ++ (objectOf members ++ [']', '\x7d']))

theorem load_reordered_noteDocument :
    let g : Graph := ⟨[⟨⟨0⟩, .control, .valueOutput, []⟩, ⟨⟨1⟩, .control, .input "t", []⟩], ⟨2⟩⟩
    load (noteDocument scatteredMembers) = .ok g ∧
      Relation.ReflTransGen Reorders (noteDocument scatteredMembers).toList
        (noteDocument tidyMembers).toList ∧
      load (noteDocument tidyMembers) = .ok g := by
  intro g
  have loaded : load (noteDocument scatteredMembers) = .ok g := by decide +kernel
  have before : BeforeNode [noteNode].length noteLead := by
    unfold noteLead
    refine .node (.object ?_ ?_ ?_ ?_ ?_ ?_) ?_ ?_
    all_goals decide +kernel
  have reorders : Reorders (noteDocument scatteredMembers).toList
      (noteDocument tidyMembers).toList := by
    refine ⟨_, noteLead, scatteredMembers, [']', '\x7d'], tidyMembers, ⟨before, ?_, ?_⟩, ?_, ?_⟩
    · decide +kernel
    · exact String.toList_ofList
    · decide +kernel
    · exact String.toList_ofList
  exact ⟨loaded, .single reorders, (load_reordered loaded).2 _ (.single reorders)⟩

end NodeGraph.Document
