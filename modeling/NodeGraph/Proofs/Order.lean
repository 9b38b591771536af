import NodeGraph.Proofs.Unfolding

/-!
# The order of lowering

Without a table of symbols a graph would be lowered by writing out the trees of its outputs, each
node after its inputs and a shared node again at every place (`Graph.expandWithin`). The table makes
lowering visit each node once, and what it visits is the first occurrence of each node in that
expansion: nodes get their symbols in the order in which they first occur there
(`Context.order_lowerOutputs`).

The order fixes all numbers. A node that needs a statement (`Node.emits`) gets the variable numbered
by the nodes before it that need one; a parameter node stands for its name, and an output for its
first input.
-/

namespace NodeGraph

/-! ### First occurrences -/

/-- Add the items of a list that are new to another one, at its end and in order. -/
def collect {α : Type} [DecidableEq α] (sofar l : List α) : List α :=
  l.foldl (fun sofar a => if a ∈ sofar then sofar else sofar ++ [a]) sofar

section

variable {α : Type} [DecidableEq α]

theorem collect_append (sofar l l' : List α) :
    collect sofar (l ++ l') = collect (collect sofar l) l' := by
  simp [collect, List.foldl_append]

theorem collect_singleton {sofar : List α} {a : α} (h : a ∉ sofar) :
    collect sofar [a] = sofar ++ [a] := by
  simp [collect, h]

/-- Nothing is added when all items are there. -/
theorem collect_of_subset {sofar l : List α} (h : ∀ a ∈ l, a ∈ sofar) :
    collect sofar l = sofar := by
  induction l with
  | nil => rfl
  | cons a l ih =>
    rw [collect, List.foldl_cons, if_pos (h a List.mem_cons_self)]
    exact ih fun b hb => h b (List.mem_cons_of_mem _ hb)

/-- Collecting a list from nothing keeps the first occurrence of each item. -/
theorem collect_nil (l : List α) : collect [] l = l.eraseDups := by
  induction l using List.reverseRecOn with
  | nil => rfl
  | append_singleton l a ih =>
    rw [collect_append, ih, List.eraseDups_append]
    by_cases h : a ∈ l
    · rw [collect_of_subset (by simpa using h)]
      simp [List.removeAll, h]
    · rw [collect_singleton (by simpa using h)]
      simp [List.removeAll, h, List.eraseDups_cons]

/-- What stands before the first occurrence of an item. -/
theorem takeWhile_bne {l : List α} {a : α} (h : a ∉ l) (rest : List α) :
    (l ++ a :: rest).takeWhile (· != a) = l := by
  have pass : ∀ b ∈ l, (b != a) = true := fun b hb => bne_iff_ne.mpr (ne_of_mem_of_not_mem hb h)
  rw [List.takeWhile_append_of_pos pass]
  simp

end

/-! ### Expansion -/

/-- The nodes of the tree of a node, each after its inputs. -/
def Graph.expandWithin (g : Graph) (depth : Nat) (id : NodeId) : Option (List NodeId) :=
  g.foldWithin (fun node parts => parts.flatten ++ [node.id]) depth id

/-- The nodes of the trees of the outputs, in stored order. -/
def Graph.expansion (g : Graph) (depth : Nat) : Option (List NodeId) :=
  ((g.outputs.map (·.id)).mapM (g.expandWithin depth)).map List.flatten

namespace Context

/-- The nodes that have a symbol, in the order in which they got it. -/
def order (c : Context) : List NodeId := (c.symbols.map Prod.fst).reverse

theorem mem_order_iff (c : Context) (id : NodeId) : id ∈ c.order ↔ ∃ s, c.symbol? id = some s := by
  rw [order, List.mem_reverse, mem_keys_iff]

theorem not_mem_order {c : Context} {id : NodeId} (unbound : c.symbol? id = none) :
    id ∉ c.order := by
  rw [mem_order_iff, unbound]
  simp

@[simp] theorem order_settle (c : Context) (node : Node) (args : List Symbol) :
    (c.settle node args).1.order = c.order ++ [node.id] := by
  simp [order]

/-- The inputs of a node with a symbol have symbols. -/
def Closed (g : Graph) (c : Context) : Prop :=
  ∀ id ∈ c.order, ∀ i, g.DependsOn id i → i ∈ c.order

theorem Closed.steps {g : Graph} {c c' : Context} (h : c.Closed g) (tracked : c.Tracked)
    (s : g.Steps c c') : c'.Closed g := by
  refine s.invariant tracked h (fun _ _ _ h => h) ?_
  intro c node args unbound stored bound h id hid i hi
  rw [order_settle, List.mem_append, List.mem_singleton] at hid ⊢
  rcases hid with hid | rfl
  · exact .inl (h id hid i hi)
  · have input := (Graph.dependsOn_iff stored).mp hi
    exact .inl ((c.mem_order_iff i).mpr (bound.of_mem_ids input))

/-- The tree of a node with a symbol has nothing but nodes with a symbol. -/
theorem Closed.expandWithin {g : Graph} {c : Context} (h : c.Closed g) {depth : Nat} {id : NodeId}
    {l : List NodeId} (hl : g.expandWithin depth id = some l) (hid : id ∈ c.order) :
    ∀ i ∈ l, i ∈ c.order := by
  induction depth generalizing id l with
  | zero => cases hl
  | succ depth ih =>
    obtain ⟨d, node, parts, hd, stored, inputs, rfl⟩ := Graph.foldWithin_eq_some hl
    cases hd
    intro i hi
    rcases List.mem_append.mp hi with hi | hi
    · obtain ⟨part, hpart, hi⟩ := List.mem_flatten.mp hi
      obtain ⟨input, hinput, hexpand⟩ := forall₂_mem_right inputs hpart
      have feeds : g.DependsOn id input := (Graph.dependsOn_iff stored).mpr hinput
      exact ih hexpand (h id hid input feeds) i hi
    · rw [List.mem_singleton.mp hi, Graph.id_of_node? stored]
      exact hid

end Context

/-! ### Requests follow the expansion -/

section

variable {g : Graph} {lower : NodeId → Context → Context × Except Fault Symbol}

/-- Requests one after the other collect the trees of their nodes, when each of them does. -/
theorem Graph.lowerEach_order (room depth : Nat)
    (each : ∀ id c, c.Tracked → room + c.path.length = maxDepth →
      g.Request [id] c (lower id c).1 ((lower id c).2.map ([·])))
    (collects : ∀ id c s l, c.Tracked → c.Closed g → room + c.path.length = maxDepth →
      (lower id c).2 = .ok s → g.expandWithin depth id = some l →
      (lower id c).1.order = collect c.order l) (ids : List NodeId) :
    ∀ (c : Context) (args : List Symbol) (parts : List (List NodeId)), c.Tracked → c.Closed g →
      room + c.path.length = maxDepth → (lowerEach lower ids c).2 = .ok args →
      List.Forall₂ (fun i l => g.expandWithin depth i = some l) ids parts →
      (lowerEach lower ids c).1.order = collect c.order parts.flatten := by
  induction ids with
  | nil =>
    intro c args parts _ _ _ _ hparts
    cases hparts
    rfl
  | cons id rest ih =>
    intro c args parts tracked closed hroom hok hparts
    cases hparts with
    | @cons _ l _ parts hl hparts =>
      have first := each id c tracked hroom
      have order t (ht : (lower id c).2 = .ok t) := collects id c t l tracked closed hroom ht hl
      unfold lowerEach at hok ⊢
      generalize lower id c = r at first order hok ⊢
      obtain ⟨c₁, fault | s⟩ := r
      · cases hok
      · have path₁ : c₁.path = c.path := (first.path [s] rfl).1
        have others ts (hts : (lowerEach lower rest c₁).2 = .ok ts) :=
          ih c₁ ts parts (tracked.steps first.steps) (closed.steps tracked first.steps)
            (by rw [path₁]; exact hroom) hts hparts
        simp only at hok ⊢
        generalize lowerEach lower rest c₁ = r at others hok ⊢
        obtain ⟨c₂, fault | ss⟩ := r
        · cases hok
        · rw [List.flatten_cons, collect_append, ← order s rfl]
          exact others ss rfl

end

/-- **A request collects the tree of its node**: the nodes that are new get their symbols in the
order in which they first occur there. -/
theorem Graph.lowerWithin_order (g : Graph) (room : Nat) :
    ∀ (depth : Nat) (id : NodeId) (c : Context) (s : Symbol) (l : List NodeId), c.Tracked →
      c.Closed g → room + c.path.length = maxDepth → (g.lowerWithin room id c).2 = .ok s →
      g.expandWithin depth id = some l → (g.lowerWithin room id c).1.order = collect c.order l := by
  -- A node that has a symbol already adds nothing: its whole tree is there.
  have known {depth : Nat} {id : NodeId} {c : Context} {s : Symbol} {l : List NodeId}
      (closed : c.Closed g) (hk : c.known? id = some (.ok s))
      (hl : g.expandWithin depth id = some l) : c.order = collect c.order l :=
    (collect_of_subset (closed.expandWithin hl
      ((c.mem_order_iff id).mpr ⟨s, Context.known?_some_ok hk⟩))).symm
  induction room with
  | zero =>
    intro depth id c s l tracked closed hroom hok hl
    unfold lowerWithin at hok ⊢
    cases hk : c.known? id with
    | none => rw [hk] at hok; cases hok
    | some answer =>
      rw [hk] at hok
      cases hok
      exact known closed hk hl
  | succ room ih =>
    intro depth id c s l tracked closed hroom hok hl
    unfold lowerWithin at hok ⊢
    cases hk : c.known? id with
    | some answer =>
      rw [hk] at hok
      cases hok
      exact known closed hk hl
    | none =>
      obtain ⟨unbound, fresh⟩ := Context.known?_none hk
      obtain ⟨d, node, parts, rfl, stored, inputs, rfl⟩ := foldWithin_eq_some hl
      have entered := tracked.enter unbound fresh (by omega)
      have hroom' : room + (c.enter id).path.length = maxDepth := by
        simp only [Context.enter, List.length_cons]
        omega
      have each := g.lowerWithin_request room
      have request := lowerEach_request room each node.inputs _ entered hroom'
      have order args
          (hargs : (lowerEach (g.lowerWithin room) node.inputs (c.enter id)).2 = .ok args) :=
        lowerEach_order room d each (ih d) node.inputs (c.enter id) args parts entered closed hroom'
          hargs inputs
      simp only [hk, stored] at hok ⊢
      generalize lowerEach (g.lowerWithin room) node.inputs (c.enter id) = r at request order hok ⊢
      obtain ⟨c₁, fault | args⟩ := r
      · cases hok
      · have same := id_of_node? stored
        have unbound₁ : c₁.symbol? node.id = none :=
          (entered.steps request.steps).unbound (same.symm ▸ (request.path args rfl).1)
        have order₁ : c₁.order = collect c.order parts.flatten := order args rfl
        simp only [Context.order_settle]
        rw [collect_append, ← order₁, collect_singleton (Context.not_mem_order unbound₁)]
        rfl

/-- The outputs are lowered in the order of the first occurrences in the expansion of the graph. -/
theorem Context.order_lowerOutputs {g : Graph} {outputs : List Symbol}
    (h : g.lowerOutputs.2 = .ok outputs) {depth : Nat} {l : List NodeId}
    (hl : g.expansion depth = some l) : g.lowerOutputs.1.order = l.eraseDups := by
  obtain ⟨parts, hparts, rfl⟩ := Option.map_eq_some_iff.mp hl
  rw [← collect_nil]
  refine Graph.lowerEach_order maxDepth depth
    (fun id c tracked _ => Graph.lower_request tracked id) ?_ _ .empty outputs parts tracked_empty
    (fun _ hid => (nomatch hid)) rfl h (mapM_eq_some_iff.mp hparts)
  intro id c s l tracked closed _ hok hl
  have room := Nat.sub_add_cancel tracked.short
  exact g.lowerWithin_order _ depth id c s l tracked closed room hok hl

/-! ### Numbers -/

/-- Whether a node needs a statement: a parameter node and an output with an input do not. -/
def Node.emits (node : Node) : Bool :=
  match node.kind with
  | .input _ => false
  | .valueOutput | .bufferOutput | .audioOutput => node.inputs.isEmpty
  | _ => true

/-- Whether the node with an id needs a statement. -/
def Graph.emits (g : Graph) (id : NodeId) : Bool :=
  match g.node? id with
  | some node => node.emits
  | none => false

theorem Node.statement?_isSome {table : List (NodeId × Symbol)} {node : Node} {args : List Symbol}
    (bound : Bound table node.inputs args) :
    (node.lowered args).statement?.isSome = node.emits := by
  unfold Node.lowered Node.emits loweredMath loweredWave loweredPolar
  cases hk : node.kind with
  | valueOutput | bufferOutput | audioOutput =>
    generalize node.inputs = ids at bound
    cases bound <;> rfl
  | _ =>
    simp only
    repeat' split
    all_goals rfl

namespace Context

/-- The symbol of a node, by its kind and its place in an order: a node that needs a statement has
the variable numbered by the nodes before it that need one, a parameter node stands for its name,
and an output with an input for its first input. -/
structure Named (g : Graph) (c : Context) (order : List NodeId) (id : NodeId) (node : Node) :
    Prop where
  statement : node.emits = true →
    c.symbol? id = some (.var ((order.takeWhile (· != id)).countP g.emits))
  parameter : ∀ name, node.kind = .input name → c.symbol? id = some (.parameter name)
  output : ∀ i rest, node.kind.isOutput = true → node.inputs = i :: rest →
    c.symbol? id = c.symbol? i

/-- The statements are those of the nodes that need one, in the order in which the nodes got their
symbols, and the order gives the symbols. -/
structure Numbered (g : Graph) (c : Context) : Prop where
  sound : c.Sound g
  nodes : c.statements.map (·.node) = c.order.filter g.emits
  named : ∀ id ∈ c.order, ∃ node, g.node? id = some node ∧ c.Named g c.order id node

theorem Numbered.counter {g : Graph} {c : Context} (h : c.Numbered g) :
    c.counter = c.order.countP g.emits := by
  have := congrArg List.length h.nodes
  rw [List.length_map, ← List.countP_eq_length_filter] at this
  rw [h.sound.counted, this]

/-- What a node with a symbol is called does not change when another node is settled. -/
theorem Named.settle {g : Graph} {c : Context} {id : NodeId} {node new : Node} {args : List Symbol}
    (h : c.Named g c.order id node) (hid : id ∈ c.order) (unbound : c.symbol? new.id = none) :
    (c.settle new args).1.Named g (c.settle new args).1.order id node := by
  have keep {i : NodeId} {s : Symbol} (hi : c.symbol? i = some s) :=
    symbol?_settle_of_some unbound args hi
  obtain ⟨s, hs⟩ := (c.mem_order_iff id).mp hid
  refine ⟨fun he => ?_, fun name hk => keep (h.parameter name hk), fun i rest ho hi => ?_⟩
  · have before : (c.order ++ [new.id]).takeWhile (· != id) = c.order.takeWhile (· != id) := by
      obtain ⟨l, r, hlr, hl⟩ := List.eq_append_cons_of_mem hid
      rw [hlr, List.append_assoc, List.cons_append, takeWhile_bne hl, takeWhile_bne hl]
    rw [order_settle, before]
    exact keep (h.statement he)
  · have same := h.output i rest ho hi
    rw [keep hs, keep (same ▸ hs)]

/-- The node that is settled is called as its kind and its place say. -/
theorem Numbered.named_settle {g : Graph} {c : Context} (h : c.Numbered g) {node : Node}
    {args : List Symbol} (unbound : c.symbol? node.id = none) (bound : c.Binds node.inputs args) :
    (c.settle node args).1.Named g (c.settle node args).1.order node.id node := by
  have symbol : (c.settle node args).1.symbol? node.id = some (c.settle node args).2 := by
    rw [symbol?_settle, if_pos rfl]
  refine ⟨fun he => ?_, fun name hk => ?_, fun i rest ho hi => ?_⟩
  · have new := not_mem_order unbound
    rw [← Node.statement?_isSome bound, Option.isSome_iff_exists] at he
    obtain ⟨⟨expr, unhandled⟩, hs⟩ := he
    rw [symbol, (settle_of_statement hs).1, order_settle, takeWhile_bne new, h.counter]
  · have hs : (node.lowered args).standsFor? = some (.parameter name) := by
      simp [Node.lowered, hk, Lowered.standsFor?]
    rw [symbol, settle_of_standsFor hs]
  · rw [Binds, hi] at bound
    cases bound with
    | @cons _ a _ as ha _ =>
      have hs : (node.lowered (a :: as)).standsFor? = some a := by
        unfold Node.lowered
        cases hk : node.kind with
        | valueOutput | bufferOutput | audioOutput => rfl
        | _ => rw [hk] at ho; cases ho
      rw [symbol, symbol?_settle_of_some unbound _ ha, settle_of_standsFor hs]

theorem Numbered.settle {g : Graph} {c : Context} (h : c.Numbered g) {node : Node}
    {args : List Symbol} (unbound : c.symbol? node.id = none) (stored : g.node? node.id = some node)
    (bound : c.Binds node.inputs args) : (c.settle node args).1.Numbered g := by
  have emits : g.emits node.id = (node.lowered args).statement?.isSome := by
    rw [Graph.emits, stored, Node.statement?_isSome bound]
  refine ⟨h.sound.settle unbound stored bound, ?_, fun id hid => ?_⟩
  · rw [order_settle, List.filter_append, ← h.nodes]
    rcases Lowered.cases (node.lowered args) with ⟨s, hs, hnone⟩ | ⟨expr, unhandled, hs⟩
    · rw [settle_of_standsFor hs]
      simp [bind, emits, hnone]
    · rw [(settle_of_statement hs).2.statements]
      simp [emits, hs]
  · rw [order_settle, List.mem_append, List.mem_singleton] at hid
    rcases hid with hid | rfl
    · obtain ⟨other, hother, named⟩ := h.named id hid
      exact ⟨other, hother, named.settle hid unbound⟩
    · exact ⟨node, stored, h.named_settle unbound bound⟩

theorem Numbered.of_steps {g : Graph} {c : Context} (s : g.Steps .empty c) : c.Numbered g :=
  s.invariant tracked_empty ⟨sound_empty g, rfl, fun _ h => (nomatch h)⟩
    (fun _ path onPath h =>
      ⟨h.sound.walk path onPath, h.nodes, fun id hid => (h.named id hid).imp fun _ hn =>
        ⟨hn.1, hn.2.statement, hn.2.parameter, hn.2.output⟩⟩)
    fun _ _ _ unbound stored bound h => h.settle unbound stored bound

end Context

/-! ### Compiled graphs -/

/-- The outputs that were lowered have an expansion, at every depth that has room for all nodes. -/
theorem Graph.exists_expansion {g : Graph} {outputs : List Symbol}
    (h : g.lowerOutputs.2 = .ok outputs) :
    ∃ l, ∀ depth, g.nodes.length ≤ depth → g.expansion depth = some l := by
  have request := g.lowerOutputs_request
  have sound := g.sound_lowerOutputs
  obtain ⟨value, hvalue⟩ :=
    request.steps.exists_foldWithin fun (node : Node) parts => parts.flatten ++ [node.id]
  refine ⟨((g.outputs.map (·.id)).map value).flatten, fun depth hd => ?_⟩
  rw [expansion, mapM_eq_some_iff.mpr, Option.map_some]
  rw [List.forall₂_map_right_iff, List.forall₂_same]
  intro id hid
  obtain ⟨s, hs⟩ := (request.binds outputs h).of_mem_ids hid
  exact foldWithin_mono (sound.length_symbols_le.trans hd) (hvalue id s hs)

/-- **Lowering with a table agrees with plain expansion.** When a graph compiles, the trees of its
outputs can be written out, and with `order` the first occurrences of the nodes there: the nodes get
their symbols in that order, by their kind and their place (`Context.Named`); the outputs have the
symbols that are told; and the statements are those of the nodes of `order` that need one, each
numbered by its position and following from the symbols of the inputs of its node. There are as many
texts, and each is that of the statement at its position. -/
theorem compile_follows_expansion {g : Graph} {p : Compiled} (compiled : g.compile = .ok p) :
    ∃ order : List NodeId,
      (∀ depth, g.nodes.length ≤ depth → (g.expansion depth).map List.eraseDups = some order) ∧
      g.lowerOutputs.1.order = order ∧
      (∀ id ∈ order, ∃ node, g.node? id = some node ∧ g.lowerOutputs.1.Named g order id node) ∧
      g.lowerOutputs.1.Binds (g.outputs.map (·.id)) p.outputs ∧
      p.body.map (·.node) = order.filter g.emits ∧
      (∀ (k : Nat) (s : Statement), p.body[k]? = some s → s.index = k ∧
        ∃ node args, s.Follows g g.lowerOutputs.1.symbols node args) ∧
      (statementTexts p.body).length = (order.filter g.emits).length ∧
      ∀ k : Nat, (statementTexts p.body)[k]? =
        p.body[k]?.map fun s => assignmentText k s.expr s.unhandled := by
  obtain ⟨-, hout, hbody, -, -⟩ := Graph.compile_eq_ok compiled
  have request := g.lowerOutputs_request
  have numbered := Context.Numbered.of_steps request.steps
  obtain ⟨l, hl⟩ := Graph.exists_expansion hout
  have order := Context.order_lowerOutputs hout (hl _ le_rfl)
  have nodes : p.body.map (·.node) = l.eraseDups.filter g.emits := by
    rw [← order, hbody]
    exact numbered.nodes
  refine ⟨l.eraseDups, fun depth hd => by rw [hl depth hd, Option.map_some], order, ?_,
    request.binds p.outputs hout, nodes, fun k s hs => ?_, ?_, Graph.getElem?_texts compiled⟩
  · rw [← order]
    exact numbered.named
  · rw [hbody] at hs
    exact ⟨(numbered.sound.written k s hs).1, numbered.sound.follows hs⟩
  · rw [← nodes, statementTexts, List.length_map, List.length_map]

/-- In `sharedGraph` the outputs are `n2` and `n8`, and `n6` is not lowered. -/
theorem compile_follows_expansion_sharedGraph :
    ∃ p, sharedGraph.compile = .ok p ∧
      sharedGraph.lowerOutputs.1.order = [9, 4, 7, 2, 5, 3, 8].map NodeId.mk ∧
      p.body.map (·.node) = [4, 7, 5, 3].map NodeId.mk := by
  obtain ⟨p, hp⟩ : ∃ p, sharedGraph.compile = .ok p := ⟨_, rfl⟩
  obtain ⟨order, hexp, horder, -, -, hbody, -⟩ := compile_follows_expansion hp
  have key : (sharedGraph.expansion 8).map List.eraseDups =
      some ([9, 4, 7, 2, 5, 3, 8].map NodeId.mk) := by decide +kernel
  rw [hexp 8 (by decide)] at key
  cases key
  exact ⟨p, hp, horder, hbody.trans (by decide +kernel)⟩

end NodeGraph
