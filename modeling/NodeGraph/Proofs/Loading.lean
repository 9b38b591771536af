import NodeGraph.Document.Graph
import NodeGraph.Proofs.Numerals

/-!
# Loading a canonical document

The canonical document of a graph loads as the graph (`load_canonical`). Ids and strings are read
back whatever they are. Numbers are not: the writer gives the fewest digits, and the reader is not
exact, so the numbers of the nodes are asked to be restored (`numberRestored`), and this is all that
is asked of them. The mark of the graph is not in its document; it is made anew, one past the
greatest id.

A node is an object whose id, domain and inputs are read on the spot, while the members of its kind
are set aside as values and looked at in the end. So a kind is restored in two steps: its members
are read as some values, and these are the kind again (`exists_values`).
-/

namespace NodeGraph

/-- The numbers in the payload of a kind. -/
def Kind.numbers : Kind → List Binary64
  | .constant value => [value]
  | .math _ params => params
  | .wave _ phase => [phase]
  | .polar _ centerX centerY => [centerX, centerY]
  | .input _ | .valueOutput | .bufferOutput | .audioOutput | .other _ => []

namespace Document

/-- Whether a number is the one that is read from its text. -/
def numberRestored (v : Binary64) : Bool :=
  match scalar (numberText v) with
  | .ok (.number n, []) => n.toBinary64 == v
  | _ => false

/-! ### Values -/

/-- A value without brackets is read as it is, wherever a value may stand. -/
theorem Reads.scalar {room : Nat} {text : List Char} {x : Value} (opens : Opens text)
    (plain : ∀ c ∈ text.head?, c ≠ '[' ∧ c ≠ '\x7b')
    (read : ∀ rest, Ended rest → scalar (text ++ rest) = .ok (x, rest)) :
    Reads (value room) text x := by
  obtain ⟨c, cs, rfl, blank, notEnd⟩ := opens
  refine ⟨⟨c, cs, rfl, blank, notEnd⟩, fun rest ended => ?_⟩
  obtain ⟨notList, notObject⟩ := plain c rfl
  rw [← read rest ended]
  unfold value
  rw [List.cons_append, skipBlanks_cons blank]
  split <;> simp_all

theorem reads_string (room : Nat) (s : String) : Reads (value room) (stringText s) (.string s) := by
  refine .scalar (opens_stringText s) ?_ fun rest _ => ?_
  · rintro c ⟨rfl⟩
    decide
  · rw [stringText_append, scalar, string_stringChars]
    rfl

/-- A number that is restored is read as some number with its value. -/
theorem exists_number (room : Nat) {v : Binary64} (h : numberRestored v = true) :
    ∃ n : Number, n.toBinary64 = v ∧ Reads (value room) (numberText v) (.number n) := by
  unfold numberRestored at h
  split at h
  · rename_i n read
    have first : ∃ c cs, numberText v = c :: cs ∧ (c = '-' ∨ c.isDigit = true) := by
      obtain ⟨cs, hc, -⟩ | ⟨c, cs, hc, digit, -⟩ := scalar_eq_number read
      · exact ⟨_, cs, hc, .inl rfl⟩
      · exact ⟨c, cs, hc, .inr digit⟩
    obtain ⟨c, cs, hc, sign⟩ := first
    have blank : isBlank c = false := by
      rcases sign with rfl | digit
      · rfl
      · exact isBlank_of_isDigit digit
    have ne (d : Char) (minus : d ≠ '-') (notDigit : d.isDigit = false) : c ≠ d := by
      rintro rfl
      rcases sign with rfl | digit
      · exact minus rfl
      · exact Bool.false_ne_true (notDigit.symm.trans digit)
    refine ⟨n, beq_iff_eq.mp h, .scalar ⟨c, cs, hc, blank, ne _ (by decide) rfl⟩ ?_
      fun rest => scalar_append read⟩
    rw [hc]
    rintro _ ⟨rfl⟩
    exact ⟨ne _ (by decide) rfl, ne _ (by decide) rfl⟩
  · cases h

/-- A list of values is read when each of them is. -/
theorem Reads.sequence {room : Nat} {texts : List (List Char)} {xs : List Value}
    (h : List.Forall₂ (Reads (value room)) texts xs) :
    Reads (value (room + 1)) (listText texts) (.sequence xs) := by
  have list := Reads.list h
  refine ⟨list.opens, fun rest ended => ?_⟩
  have read := list.read rest ended
  unfold listText at read ⊢
  simp only [List.cons_append] at read ⊢
  rw [listOf, skipBlanks_cons (show isBlank '[' = false from rfl)] at read
  unfold value
  rw [skipBlanks_cons (show isBlank '[' = false from rfl)]
  simp only at read ⊢
  rw [read]
  rfl

/-- Numbers that are restored are read as a list with their values. -/
theorem exists_numbers (room : Nat) {vs : List Binary64} (h : ∀ v ∈ vs, numberRestored v = true) :
    ∃ xs : List Value, xs.mapM floatValue = .ok vs ∧
      Reads (value (room + 1)) (listText (vs.map numberText)) (.sequence xs) := by
  suffices each : ∃ xs : List Value, xs.mapM floatValue = .ok vs ∧
      List.Forall₂ (Reads (value room)) (vs.map numberText) xs by
    obtain ⟨xs, values, read⟩ := each
    exact ⟨xs, values, .sequence read⟩
  induction vs with
  | nil => exact ⟨[], rfl, .nil⟩
  | cons v vs ih =>
    obtain ⟨n, value, head⟩ := exists_number room (h v List.mem_cons_self)
    obtain ⟨xs, values, tail⟩ := ih fun w hw => h w (List.mem_cons_of_mem _ hw)
    refine ⟨.number n :: xs, ?_, .cons head tail⟩
    rw [List.mapM_cons, values]
    simp [floatValue, value, bind, Except.bind, pure, Except.pure]

/-! ### Kinds -/

/-- A member is read as a value under its key. -/
def ReadsMember (member : String × List Char) (x : String × Value) : Prop :=
  member.1 = x.1 ∧ Reads (value valueRoom) member.2 x.2

/-- The members of a kind whose numbers are restored are read as values that are the kind again. -/
theorem exists_values (k : Kind) (h : ∀ v ∈ k.numbers, numberRestored v = true) :
    ∃ xs, List.Forall₂ ReadsMember (kindMembers k) xs ∧ kindOf xs = .ok k := by
  have text (key s : String) : ReadsMember (key, stringText s) (key, .string s) :=
    ⟨rfl, reads_string _ s⟩
  cases k with
  | input name =>
    exact ⟨[("kind", .string "input"), ("name", .string name)],
      .cons (text _ _) (.cons (text _ _) .nil), rfl⟩
  | constant v =>
    obtain ⟨n, rfl, number⟩ := exists_number valueRoom (h v (by simp [Kind.numbers]))
    exact ⟨[("kind", .string "constant"), ("value", .number n)],
      .cons (text _ _) (.cons ⟨rfl, number⟩ .nil), rfl⟩
  | math op params =>
    obtain ⟨xs, values, numbers⟩ : ∃ xs : List Value, xs.mapM floatValue = .ok params ∧ _ :=
      exists_numbers 123 h
    refine ⟨[("kind", .string "math"), ("op", .string op), ("params", .sequence xs)],
      .cons (text _ _) (.cons (text _ _) (.cons ⟨rfl, numbers⟩ .nil)), ?_⟩
    have part : Shape.numbers.part (.sequence xs) = .ok (.numbers params) := by
      simp [Shape.part, values, bind, Except.bind, pure, Except.pure]
    have name : KindName.ofMembers [("kind", .string "math"), ("op", .string op),
        ("params", .sequence xs)] = .ok .math := rfl
    have parts : partsOf KindName.math.fields [] [("kind", .string "math"), ("op", .string op),
        ("params", .sequence xs)] = (Shape.numbers.part (.sequence xs)).bind fun part =>
          .ok [("op", .text op), ("params", part)] := rfl
    rw [part] at parts
    unfold kindOf
    rw [name]
    simp only [bind, Except.bind, parts]
    rfl
  | wave form phase =>
    obtain ⟨n, rfl, number⟩ := exists_number valueRoom (h phase (by simp [Kind.numbers]))
    exact ⟨[("kind", .string "wave"), ("wave", .string form), ("phase", .number n)],
      .cons (text _ _) (.cons (text _ _) (.cons ⟨rfl, number⟩ .nil)), rfl⟩
  | polar op x y =>
    obtain ⟨n, rfl, first⟩ := exists_number valueRoom (h x (by simp [Kind.numbers]))
    obtain ⟨m, rfl, second⟩ := exists_number valueRoom (h y (by simp [Kind.numbers]))
    exact ⟨[("kind", .string "polar"), ("op", .string op), ("center_x", .number n),
      ("center_y", .number m)],
      .cons (text _ _) (.cons (text _ _) (.cons ⟨rfl, first⟩ (.cons ⟨rfl, second⟩ .nil))), rfl⟩
  | valueOutput => exact ⟨[("kind", .string "value_output")], .cons (text _ _) .nil, rfl⟩
  | bufferOutput => exact ⟨[("kind", .string "buffer_output")], .cons (text _ _) .nil, rfl⟩
  | audioOutput => exact ⟨[("kind", .string "audio_output")], .cons (text _ _) .nil, rfl⟩
  | other tag =>
    exact ⟨[("kind", .string "other"), ("tag", .string tag)],
      .cons (text _ _) (.cons (text _ _) .nil), rfl⟩

/-- The members of a kind are none of those that are read on the spot. -/
theorem key_of_mem_kindMembers (k : Kind) :
    ∀ member ∈ kindMembers k, member.1 ≠ "id" ∧ member.1 ≠ "domain" ∧ member.1 ≠ "inputs" := by
  cases k <;> simp [kindMembers]

/-! ### Nodes -/

theorem reads_domain (d : Domain) : Reads domain (stringText d.name) d := by
  refine ⟨opens_stringText _, fun rest _ => ?_⟩
  rw [stringText_append, domain, skipBlanks_cons (show isBlank '"' = false from rfl)]
  simp only [string_stringChars]
  cases d <;> rfl

/-- The members of a payload are set aside. -/
theorem carries_others {texts : List (String × List Char)} {xs : List (String × Value)}
    (h : List.Forall₂ ReadsMember texts xs)
    (keys : ∀ member ∈ texts, member.1 ≠ "id" ∧ member.1 ≠ "domain" ∧ member.1 ≠ "inputs")
    (draft : Draft) :
    Carries nodeMember draft texts { draft with others := draft.others ++ xs } := by
  induction h generalizing draft with
  | nil => simpa using Carries.nil draft
  | @cons member x texts xs head _ ih =>
    obtain ⟨key, text⟩ := member
    obtain ⟨key', x⟩ := x
    obtain ⟨rfl, read⟩ : key = key' ∧ Reads (value valueRoom) text x := head
    obtain ⟨notId, notDomain, notInputs⟩ := keys (key, text) List.mem_cons_self
    have others := ih (fun member hm => keys member (List.mem_cons_of_mem _ hm))
      { draft with others := draft.others ++ [(key, x)] }
    rw [List.append_assoc] at others
    refine .cons (fun rest ended => ?_) others
    have first := read.read rest ended
    simp only [nodeMember, if_neg notId, if_neg notDomain, if_neg notInputs, colon_cons, bind,
      Except.bind, first]
    rfl

/-- A node whose numbers are restored is read back. -/
theorem reads_node (n : Node) (h : ∀ v ∈ n.kind.numbers, numberRestored v = true) :
    Reads node (nodeText n) n := by
  obtain ⟨xs, members, kind⟩ := exists_values n.kind h
  have inputs : Reads (listOf nodeId) (listText (n.inputs.map idText)) n.inputs :=
    .list (List.forall₂_map_left_iff.mpr (List.forall₂_same.mpr fun id _ => reads_nodeId id))
  have id (rest : List Char) (ended : Ended rest) :
      nodeMember ⟨none, none, none, []⟩ "id" (':' :: (idText n.id ++ rest)) =
        .ok (⟨some n.id, none, none, []⟩, rest) := by
    simp [nodeMember, colon_cons, (reads_nodeId n.id).read rest ended, bind, Except.bind, pure,
      Except.pure]
  have domain (rest : List Char) (ended : Ended rest) :
      nodeMember ⟨some n.id, none, none, []⟩ "domain"
        (':' :: (stringText n.domain.name ++ rest)) =
        .ok (⟨some n.id, some n.domain, none, []⟩, rest) := by
    simp [nodeMember, colon_cons, (reads_domain n.domain).read rest ended, bind, Except.bind, pure,
      Except.pure]
  have last (rest : List Char) (ended : Ended rest) :
      nodeMember ⟨some n.id, some n.domain, none, xs⟩ "inputs"
        (':' :: (listText (n.inputs.map idText) ++ rest)) =
        .ok (⟨some n.id, some n.domain, some n.inputs, xs⟩, rest) := by
    simp [nodeMember, colon_cons, inputs.read rest ended, bind, Except.bind, pure, Except.pure]
  have carried : Carries nodeMember ⟨none, none, none, []⟩
      (("id", idText n.id) :: ("domain", stringText n.domain.name) ::
        (kindMembers n.kind ++ [("inputs", listText (n.inputs.map idText))]))
      ⟨some n.id, some n.domain, some n.inputs, xs⟩ :=
    .cons id (.cons domain ((carries_others members (key_of_mem_kindMembers n.kind) _).append
      (.cons last (.nil _))))
  refine ⟨⟨'\x7b', _, rfl, rfl, by decide⟩, fun rest _ => ?_⟩
  obtain ⟨inside, text, read⟩ := members_objectText carried rest
  have text' : nodeText n ++ rest = '\x7b' :: inside := text
  rw [text', node, skipBlanks_cons (show isBlank '\x7b' = false from rfl)]
  simp [read, Draft.finish, kind, bind, Except.bind, pure, Except.pure]

/-! ### Graphs -/

/-- Nodes whose numbers are restored are read back from their canonical document. -/
theorem nodes_canonicalText {ns : List Node}
    (h : ∀ n ∈ ns, ∀ v ∈ n.kind.numbers, numberRestored v = true) :
    nodes (canonicalText ns) = .ok (ns, []) := by
  have list : Reads (listOf node) (listText (ns.map nodeText)) ns :=
    .list (List.forall₂_map_left_iff.mpr (List.forall₂_same.mpr fun n hn => reads_node n (h n hn)))
  have carried : Carries graphMember none [("nodes", listText (ns.map nodeText))] (some ns) := by
    refine .cons (fun rest ended => ?_) (.nil _)
    simp [graphMember, colon_cons, list.read rest ended, bind, Except.bind, pure, Except.pure]
  obtain ⟨inside, text, read⟩ := members_objectText carried []
  have text' : canonicalText ns = '\x7b' :: inside := by rw [← text, List.append_nil]; rfl
  rw [text', nodes, skipBlanks_cons (show isBlank '\x7b' = false from rfl)]
  simp [read, bind, Except.bind, pure, Except.pure]

end Document

/-- One past the greatest id of some nodes, the least id when there are none. -/
def pastIds (nodes : List Node) : Nat := ((nodes.map (·.id.val.toNat)).max?).elim 0 (· + 1)

theorem NodeId.toNat_later (a b : NodeId) :
    (a.later b).val.toNat = max a.val.toNat b.val.toNat := by
  unfold NodeId.later
  split
  · rename_i less
    rw [UInt32.lt_iff_toNat_lt] at less
    omega
  · rename_i less
    rw [UInt32.lt_iff_toNat_lt] at less
    omega

theorem NodeId.next?_eq {id : NodeId} (h : id.val.toNat < 4294967295) :
    ∃ after, id.next? = some after ∧ after.val.toNat = id.val.toNat + 1 := by
  refine ⟨⟨id.val + 1⟩, if_pos h, ?_⟩
  rw [UInt32.toNat_add]
  exact Nat.mod_eq_of_lt (by simpa using Nat.succ_lt_succ h)

theorem NodeId.toNat_foldl_later (ids : List NodeId) (id : NodeId) :
    (ids.foldl .later id).val.toNat = (ids.map (·.val.toNat)).foldl max id.val.toNat := by
  induction ids generalizing id with
  | nil => rfl
  | cons next ids ih => rw [List.foldl_cons, ih, toNat_later, List.map_cons, List.foldl_cons]

theorem pastIds_eq (ns : List Node) :
    pastIds ns = (ns.map (·.id.val.toNat + 1)).foldl max 0 := by
  have shift (ms : List Nat) (m : Nat) :
      (ms.map (· + 1)).foldl max (m + 1) = ms.foldl max m + 1 := by
    induction ms generalizing m with
    | nil => rfl
    | cons next ms ih =>
      rw [List.map_cons, List.foldl_cons, List.foldl_cons, ← ih, Nat.succ_max_succ]
  cases ns with
  | nil => rfl
  | cons n ns =>
    have past := shift (ns.map (·.id.val.toNat)) n.id.val.toNat
    rw [List.map_map] at past
    rw [pastIds, List.map_cons, List.max?_cons', List.map_cons, List.foldl_cons, Nat.zero_max]
    exact past.symm

/-- Nodes that are not of the greatest id make a graph. -/
theorem Graph.ofNodes?_eq {ns : List Node} (h : ∀ n ∈ ns, n.id.val.toNat < 4294967295) :
    ∃ mark, Graph.ofNodes? ns = some ⟨ns, mark⟩ ∧ mark.val.toNat = pastIds ns := by
  have afters : ∃ afters : List NodeId, ns.mapM (fun n => n.id.next?) = some afters ∧
      afters.map (·.val.toNat) = ns.map (·.id.val.toNat + 1) := by
    induction ns with
    | nil => exact ⟨[], rfl, rfl⟩
    | cons n ns ih =>
      obtain ⟨after, next, value⟩ := NodeId.next?_eq (h n List.mem_cons_self)
      obtain ⟨afters, others, values⟩ := ih fun m hm => h m (List.mem_cons_of_mem _ hm)
      exact ⟨after :: afters, by simp [next, others], by simp [value, values]⟩
  obtain ⟨afters, others, values⟩ := afters
  refine ⟨afters.foldl .later .first, by simp [ofNodes?, others], ?_⟩
  rw [NodeId.toNat_foldl_later, values, pastIds_eq]
  rfl

/-- **The canonical document of a graph loads as the graph.** -/
theorem load_canonical {g : Graph} (ids : ∀ node ∈ g.nodes, node.id.val.toNat < 4294967295)
    (numbers : ∀ node ∈ g.nodes, ∀ v ∈ node.kind.numbers, Document.numberRestored v = true) :
    ∃ mark, Document.load g.canonical = .ok ⟨g.nodes, mark⟩ ∧ mark.val.toNat = pastIds g.nodes := by
  obtain ⟨mark, graph, past⟩ := Graph.ofNodes?_eq ids
  refine ⟨mark, ?_, past⟩
  have read := Document.nodes_canonicalText numbers
  unfold Document.load Graph.canonical
  rw [String.toList_ofList, read]
  simp only [graph]
  rfl

/-- A graph that is out of order: an id stands twice, an input names no node, a name is full of
characters that are escaped, and a zero is negative. -/
def disorderlyGraph : Graph :=
  ⟨[⟨⟨9⟩, .visual, .input "\"a\\b\"\n\x01 é", [⟨9⟩, ⟨40⟩]⟩,
    ⟨⟨2⟩, .control, .math "add" [⟨0x3FB999999999999A⟩, ⟨0x8000000000000000⟩], [⟨9⟩, ⟨2⟩]⟩,
    ⟨⟨9⟩, .control, .wave "" ⟨0x7E37E43C8800759C⟩, []⟩,
    ⟨⟨4⟩, .visual, .audioOutput, [⟨2⟩]⟩], .first⟩

theorem load_canonical_disorderlyGraph :
    ∃ mark, Document.load disorderlyGraph.canonical = .ok ⟨disorderlyGraph.nodes, mark⟩ ∧
      mark.val.toNat = 10 :=
  load_canonical (by decide) (by decide +kernel)

end NodeGraph
