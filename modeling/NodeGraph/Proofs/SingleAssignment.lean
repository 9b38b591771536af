import Mathlib.Data.List.Perm.Subperm
import NodeGraph.Proofs.FreshIds
import NodeGraph.Proofs.Steps

/-!
# Single assignment

Lowering numbers its variables by its statements: the counter is the number of statements, statement
`k` defines `v{k}`, no node has two statements, and a statement mentions only parameters and
variables of statements before it. This holds after any requests on one context, in any order and
whether they were answered or not. The lines of the source are those of the statements, one for each
(`assignmentText`). There are no more statements than ids, so on a graph that was reached by adding
and pushing nodes the counter stays a number of 32 bits (`Graph.Grown.counter_lt`).

The table of symbols keeps its history, since a symbol is put in front of the earlier ones: what
stands behind the entry of a node is the table from which the node was settled. So "the symbols that
the inputs had when the statement was written" are those of the rest of the table behind the entry
of the statement's node, and `Statement.Follows` is stated with that rest.
-/

namespace NodeGraph

/-- The symbol is the name of a parameter node, or a variable with a number below a bound. -/
def Symbol.Before (g : Graph) (bound : Nat) : Symbol → Prop
  | .parameter name => ∃ node ∈ g.nodes, node.kind = .input name
  | .var index => index < bound

theorem Symbol.Before.mono {g : Graph} {m n : Nat} (h : m ≤ n) {s : Symbol} (hs : s.Before g m) :
    s.Before g n := by
  cases s with
  | parameter name => exact hs
  | var index => exact Nat.lt_of_lt_of_le hs h

/-- The statement is what the rule of its node gives for the symbols that the inputs of the node
have in a table, and all of these come before the statement. -/
structure Statement.Follows (g : Graph) (table : List (NodeId × Symbol)) (s : Statement)
    (node : Node) (args : List Symbol) : Prop where
  stored : g.node? s.node = some node
  bound : Bound table node.inputs args
  rule : (node.lowered args).statement? = some (s.expr, s.unhandled)
  before : ∀ a ∈ args, a.Before g s.index

/-- An item of a list that grew by one is an old item or the new one. -/
theorem getElem?_append_singleton {α : Type} {l : List α} {a b : α} {k : Nat}
    (h : (l ++ [a])[k]? = some b) : l[k]? = some b ∨ k = l.length ∧ b = a := by
  rcases Nat.lt_trichotomy k l.length with hk | hk | hk
  · rw [List.getElem?_append_left hk] at h
    exact .inl h
  · subst hk
    rw [List.getElem?_concat_length, Option.some.injEq] at h
    exact .inr ⟨rfl, h.symm⟩
  · rw [List.getElem?_eq_none (by rw [List.length_append, List.length_singleton]; omega)] at h
    cases h

/-- A node that stands for a symbol is a parameter, or the symbol is that of its first input. -/
theorem Node.standsFor?_eq_some {node : Node} {args : List Symbol} {s : Symbol}
    (h : (node.lowered args).standsFor? = some s) :
    (∃ name, node.kind = .input name ∧ s = .parameter name) ∨
      node.kind.isOutput = true ∧ args.head? = some s := by
  unfold Node.lowered loweredMath loweredWave loweredPolar at h
  cases hk : node.kind with
  | input name =>
    simp only [hk, Lowered.standsFor?, Option.some.injEq] at h
    exact .inl ⟨name, rfl, h.symm⟩
  | valueOutput | bufferOutput | audioOutput =>
    simp only [hk] at h
    cases args with
    | nil => cases h
    | cons a rest => cases h; exact .inr ⟨rfl, rfl⟩
  | _ =>
    simp only [hk] at h
    repeat' split at h
    all_goals cases h

namespace Context

/-- What every step of lowering preserves: statements are numbered by the counter, each follows from
its node, every symbol is in scope, and the table has one entry for each of its nodes. -/
structure Sound (g : Graph) (c : Context) : Prop where
  counted : c.counter = c.statements.length
  keyed : (c.symbols.map Prod.fst).Nodup
  stored : ∀ id ∈ c.symbols.map Prod.fst, id ∈ g.ids
  inScope : ∀ id s, c.symbol? id = some s → s.Before g c.counter
  written : ∀ k s, c.statements[k]? = some s → s.index = k ∧
    ∃ table node args, ((s.node, .var k) :: table) <:+ c.symbols ∧ s.Follows g table node args

theorem sound_empty (g : Graph) : Sound g .empty :=
  ⟨rfl, List.nodup_nil, fun _ h => (nomatch h), fun _ _ h => (nomatch h), fun _ _ h => (nomatch h)⟩

theorem mem_keys_iff (c : Context) (id : NodeId) :
    id ∈ c.symbols.map Prod.fst ↔ ∃ s, c.symbol? id = some s := by
  rw [← Option.isSome_iff_exists, symbol?, List.lookup_isSome_iff, List.mem_map]
  exact exists_congr fun p => and_congr_right fun _ => by rw [beq_iff_eq, eq_comm]

theorem symbol?_eq_none_iff (c : Context) (id : NodeId) :
    c.symbol? id = none ↔ id ∉ c.symbols.map Prod.fst := by
  rw [mem_keys_iff]
  simp [Option.eq_none_iff_forall_ne_some]

/-- The symbol that a node stands for is in scope. -/
theorem Sound.standsFor {g : Graph} {c : Context} (h : c.Sound g) {node : Node} {args : List Symbol}
    {s : Symbol} (stored : g.node? node.id = some node) (bound : c.Binds node.inputs args)
    (hs : (node.lowered args).standsFor? = some s) : s.Before g c.counter := by
  obtain ⟨name, hk, rfl⟩ | ⟨-, ha⟩ := Node.standsFor?_eq_some hs
  · exact ⟨node, Graph.mem_of_node? stored, hk⟩
  · obtain ⟨i, -, hi⟩ := bound.of_mem_args (List.mem_of_mem_head? ha)
    exact h.inScope i s hi

/-- Settling a node that has no symbol keeps the context sound. -/
theorem Sound.settle {g : Graph} {c : Context} (h : c.Sound g) {node : Node} {args : List Symbol}
    (unbound : c.symbol? node.id = none) (stored : g.node? node.id = some node)
    (bound : c.Binds node.inputs args) : (c.settle node args).1.Sound g := by
  have keyed : ((c.settle node args).1.symbols.map Prod.fst).Nodup := by
    rw [symbols_settle, List.map_cons]
    exact List.nodup_cons.mpr ⟨(c.symbol?_eq_none_iff _).mp unbound, h.keyed⟩
  have known : ∀ i ∈ (c.settle node args).1.symbols.map Prod.fst, i ∈ g.ids := by
    rw [symbols_settle, List.map_cons]
    intro i hi
    rcases List.mem_cons.mp hi with rfl | hi
    · exact Graph.mem_ids_of_node? stored
    · exact h.stored i hi
  -- A symbol of the new table is the one just bound or an old one.
  have inScope {n : Nat} (hle : c.counter ≤ n) (hnew : (c.settle node args).2.Before g n)
      (i : NodeId) (s : Symbol) (hs : (c.settle node args).1.symbol? i = some s) :
      s.Before g n := by
    rw [symbol?_settle] at hs
    split at hs
    · cases hs; exact hnew
    · exact (h.inScope i s hs).mono hle
  -- An old statement follows from the same part of the table as before.
  have old (k : Nat) (s : Statement) (hs : c.statements[k]? = some s) : s.index = k ∧
      ∃ table node' args', ((s.node, .var k) :: table) <:+ (c.settle node args).1.symbols ∧
        s.Follows g table node' args' := by
    obtain ⟨hi, table, node', args', hsuf, hf⟩ := h.written k s hs
    refine ⟨hi, table, node', args', ?_, hf⟩
    rw [symbols_settle]
    exact hsuf.trans (List.suffix_cons _ _)
  rcases Lowered.cases (node.lowered args) with ⟨s, hs, -⟩ | ⟨expr, unhandled, hs⟩
  · have hsettle := settle_of_standsFor (c := c) hs
    rw [hsettle] at keyed known inScope old ⊢
    exact ⟨h.counted, keyed, known, inScope le_rfl (h.standsFor stored bound hs), old⟩
  · obtain ⟨hvar, hwrote⟩ := settle_of_statement (c := c) hs
    refine ⟨?_, keyed, known, ?_, ?_⟩
    · rw [hwrote.counter, hwrote.statements, List.length_append, List.length_singleton, h.counted]
    · rw [hwrote.counter]
      refine inScope (Nat.le_succ _) ?_
      rw [hvar]
      exact Nat.lt_succ_self _
    · rw [hwrote.statements]
      intro k s hk
      rcases getElem?_append_singleton hk with hk | ⟨rfl, rfl⟩
      · exact old k s hk
      · have entry : (c.settle node args).1.symbols =
            (node.id, .var c.statements.length) :: c.symbols := by
          rw [symbols_settle, hvar, h.counted]
        refine ⟨h.counted, c.symbols, node, args, ?_, stored, bound, hs, fun a ha => ?_⟩
        · exact entry ▸ List.suffix_refl _
        · obtain ⟨i, -, hi⟩ := bound.of_mem_args ha
          exact h.inScope i a hi

/-- The path does not matter. -/
theorem Sound.walk {g : Graph} {c : Context} (h : c.Sound g) (path onPath : List NodeId) :
    Sound g { c with path := path, onPath := onPath } :=
  ⟨h.counted, h.keyed, h.stored, h.inScope, h.written⟩

/-- Every context that lowering reaches from a sound one is sound. -/
theorem Sound.steps {g : Graph} {c c' : Context} (h : c.Sound g) (tracked : c.Tracked)
    (s : g.Steps c c') : c'.Sound g :=
  s.invariant tracked h (fun _ path onPath h => h.walk path onPath)
    fun _ _ _ unbound stored bound h => h.settle unbound stored bound

/-- The symbols that the inputs of a statement's node had when it was written are those they have
now. -/
theorem Sound.follows {g : Graph} {c : Context} (h : c.Sound g) {k : Nat} {s : Statement}
    (hs : c.statements[k]? = some s) : ∃ node args, s.Follows g c.symbols node args := by
  obtain ⟨-, table, node, args, hsuf, hf⟩ := h.written k s hs
  obtain ⟨front, hfront⟩ := (List.suffix_cons _ _).trans hsuf
  have keep (i : NodeId) (a : Symbol) (ha : table.lookup i = some a) :
      c.symbols.lookup i = some a := by
    have old : i ∈ table.map Prod.fst := by
      have := List.lookup_isSome_iff.mp (Option.isSome_of_eq_some ha)
      obtain ⟨entry, hentry, hi⟩ := this
      exact List.mem_map.mpr ⟨entry, hentry, (beq_iff_eq.mp hi).symm⟩
    have keyed := h.keyed
    rw [← hfront, List.map_append, List.nodup_append] at keyed
    have new : front.lookup i = none := by
      rw [List.lookup_eq_none_iff]
      intro entry hentry
      exact bne_iff_ne.mpr (keyed.2.2 _ (List.mem_map_of_mem hentry) _ old).symm
    rw [← hfront, List.lookup_append, new, Option.none_or, ha]
  exact ⟨node, args, hf.stored, List.Forall₂.imp keep hf.bound, hf.rule, hf.before⟩

/-- Two statements of a sound context that compute one node are the same statement: the table has
one entry for the node, and its symbol is the variable of both. -/
theorem Sound.nodup_nodes {g : Graph} {c : Context} (h : c.Sound g) :
    (c.statements.map (·.node)).Nodup := by
  have unique (j k : Nat) (s t : Statement) (hj : c.statements[j]? = some s)
      (hk : c.statements[k]? = some t) (hst : s.node = t.node) : j = k := by
    obtain ⟨-, tj, -, -, hsj, -⟩ := h.written j s hj
    obtain ⟨-, tk, -, -, hsk, -⟩ := h.written k t hk
    have hmj : (s.node, Symbol.var j) ∈ c.symbols := hsj.subset List.mem_cons_self
    have hmk : (t.node, Symbol.var k) ∈ c.symbols := hsk.subset List.mem_cons_self
    have := List.inj_on_of_nodup_map h.keyed hmj hmk hst
    simpa [hst] using this
  rw [List.nodup_iff_getElem?_ne_getElem?]
  intro j k hjk hk hne
  rw [List.length_map] at hk
  have hj : j < c.statements.length := hjk.trans hk
  simp only [List.getElem?_map, List.getElem?_eq_getElem hj, List.getElem?_eq_getElem hk,
    Option.map_some, Option.some.injEq] at hne
  have := unique j k _ _ (List.getElem?_eq_getElem hj) (List.getElem?_eq_getElem hk) hne
  omega

/-- There are no more statements than nodes. -/
theorem Sound.length_statements_le {g : Graph} {c : Context} (h : c.Sound g) :
    c.statements.length ≤ g.nodes.length := by
  have sub : c.statements.map (·.node) ⊆ g.ids := by
    intro i hi
    obtain ⟨s, hs, rfl⟩ := List.mem_map.mp hi
    obtain ⟨k, hk⟩ := List.mem_iff_getElem?.mp hs
    obtain ⟨-, table, node, args, -, hf⟩ := h.written k s hk
    exact Graph.mem_ids_of_node? hf.stored
  have := (h.nodup_nodes.subperm sub).length_le
  simpa [Graph.ids] using this

/-- A context holds all that another one holds, in the same order. -/
structure Extends (c c' : Context) : Prop where
  symbols : c.symbols <:+ c'.symbols
  statements : c.statements <+: c'.statements
  placeholders : c.placeholders <+: c'.placeholders

theorem Extends.refl (c : Context) : c.Extends c :=
  ⟨List.suffix_refl _, List.prefix_refl _, List.prefix_refl _⟩

theorem Extends.settle {c c' : Context} (h : c.Extends c') (node : Node) (args : List Symbol) :
    c.Extends (c'.settle node args).1 := by
  have symbols : c.symbols <:+ (c'.settle node args).1.symbols := by
    rw [symbols_settle]
    exact h.symbols.trans (List.suffix_cons _ _)
  rcases Lowered.cases (node.lowered args) with ⟨s, hs, -⟩ | ⟨expr, unhandled, hs⟩
  · have hsettle := settle_of_standsFor (c := c') hs
    rw [hsettle] at symbols ⊢
    exact ⟨symbols, h.statements, h.placeholders⟩
  · obtain ⟨-, hwrote⟩ := settle_of_statement (c := c') hs
    refine ⟨symbols, ?_, ?_⟩
    · rw [hwrote.statements]
      exact h.statements.trans (List.prefix_append _ _)
    · rw [hwrote.placeholders]
      exact h.placeholders.trans (List.prefix_append _ _)

end Context

theorem Graph.Steps.extends {g : Graph} {c c' : Context} (s : g.Steps c c') (tracked : c.Tracked) :
    c.Extends c' :=
  s.invariant tracked (.refl c) (fun _ _ _ h => ⟨h.symbols, h.statements, h.placeholders⟩)
    fun _ node args _ _ _ h => h.settle node args

/-- The context in which the outputs of a graph are lowered is sound, whatever the answer. -/
theorem Graph.sound_lowerOutputs (g : Graph) : g.lowerOutputs.1.Sound g :=
  (Context.sound_empty g).steps Context.tracked_empty g.lowerOutputs_request.steps

/-! ### Texts -/

/-- The text of an assignment: the variable with a number, what it is assigned, and what was not
handled, if anything, as a comment. -/
def assignmentText (k : ℕ) (expr : Expr Symbol) (unhandled : Option String) : String :=
  let comment := unhandled.elim "" fun detail => "  # unhandled " ++ detail
  "let v" ++ toString k ++ " = " ++ expr.text ++ comment

theorem Statement.text_eq (s : Statement) :
    s.text = assignmentText s.index s.expr s.unhandled := by
  have name : "let " ++ variableName s.index = "let v" ++ toString s.index := by
    rw [variableName, ← String.append_assoc]
    rfl
  rw [Statement.text, assignmentText, name]
  cases s.unhandled with
  | none => rfl
  | some detail => rfl

/-- A statement of a sound context is written with its position as the number. -/
theorem Context.Sound.text_eq {g : Graph} {c : Context} (h : c.Sound g) {k : ℕ} {s : Statement}
    (hs : c.statements[k]? = some s) : s.text = assignmentText k s.expr s.unhandled := by
  obtain ⟨rfl, -⟩ := h.written k s hs
  exact s.text_eq

/-- The texts of a sound context are those of its statements. -/
theorem Context.Sound.getElem?_texts {g : Graph} {c : Context} (h : c.Sound g) (k : ℕ) :
    (statementTexts c.statements)[k]? =
      c.statements[k]?.map fun s => assignmentText k s.expr s.unhandled := by
  rw [statementTexts, List.getElem?_map]
  cases hs : c.statements[k]? with
  | none => rfl
  | some s => rw [Option.map_some, Option.map_some, h.text_eq hs]

/-- The body of a compiled graph is that of a sound context. -/
theorem Graph.exists_sound {g : Graph} {p : Compiled} (compiled : g.compile = .ok p) :
    ∃ c : Context, c.Sound g ∧ c.statements = p.body := by
  obtain ⟨-, -, body, -, -⟩ := compile_eq_ok compiled
  exact ⟨_, g.sound_lowerOutputs, body.symm⟩

/-- A statement of a compiled graph is written with its position as the number. -/
theorem Graph.text_eq {g : Graph} {p : Compiled} (compiled : g.compile = .ok p) {k : ℕ}
    {s : Statement} (hs : p.body[k]? = some s) :
    s.text = assignmentText k s.expr s.unhandled := by
  obtain ⟨c, sound, body⟩ := exists_sound compiled
  exact sound.text_eq (body ▸ hs)

/-- The texts of a compiled graph are those of its statements. -/
theorem Graph.getElem?_texts {g : Graph} {p : Compiled} (compiled : g.compile = .ok p) (k : ℕ) :
    (statementTexts p.body)[k]? =
      p.body[k]?.map fun s => assignmentText k s.expr s.unhandled := by
  obtain ⟨c, sound, body⟩ := exists_sound compiled
  rw [← body]
  exact sound.getElem?_texts k

/-! ### Any requests -/

/-- The context after some requests on a new one, whatever their answers. -/
def Graph.afterRequests (g : Graph) (ids : List NodeId) : Context :=
  ids.foldl (fun c id => (g.lower id c).1) .empty

theorem Graph.afterRequests_steps (g : Graph) (ids : List NodeId) :
    g.Steps .empty (g.afterRequests ids) := by
  induction ids using List.reverseRecOn with
  | nil => exact .refl
  | append_singleton ids id ih =>
    rw [afterRequests, List.foldl_concat]
    exact ih.trans (lower_request (Context.tracked_empty.steps ih) id).steps

theorem Graph.afterRequests_tracked (g : Graph) (requests : List NodeId) :
    (g.afterRequests requests).Tracked :=
  Context.tracked_empty.steps (g.afterRequests_steps requests)

theorem Graph.afterRequests_concat (g : Graph) (requests : List NodeId) (id : NodeId) :
    g.afterRequests (requests ++ [id]) = (g.lower id (g.afterRequests requests)).1 :=
  List.foldl_concat _ _ _ _

/-- A context in which every variable is assigned once, and before it is used. -/
structure Context.SingleAssignment (g : Graph) (c : Context) : Prop where
  /-- The counter is the number of statements. -/
  counted : c.counter = c.statements.length
  /-- There are no more statements than nodes. -/
  bounded : c.counter ≤ g.nodes.length
  /-- Statement `k` defines `v{k}`. -/
  named : ∀ (k : Nat) (text : String), (statementTexts c.statements)[k]? = some text →
    ∃ rest, text = "let " ++ variableName k ++ " = " ++ rest
  /-- Text `k` is that of statement `k`, and there are no other texts. -/
  texts : ∀ k : ℕ, (statementTexts c.statements)[k]? =
    c.statements[k]?.map fun s => assignmentText k s.expr s.unhandled
  /-- No two statements compute one node. -/
  distinct : (c.statements.map (·.node)).Nodup
  /-- Statement `k` is what the rule of its node gives for the symbols that the inputs of the node
  had when it was written, each of them the name of a parameter node or a `v{j}` with `j < k`. -/
  follows : ∀ k s, c.statements[k]? = some s → s.index = k ∧
    ∃ table node args, ((s.node, .var k) :: table) <:+ c.symbols ∧ s.Follows g table node args
  /-- The path has no repeats, at most 1024 entries and no node with a symbol, and the set of its
  nodes is kept beside it. -/
  tracked : c.Tracked

theorem Context.Sound.singleAssignment {g : Graph} {c : Context} (h : c.Sound g)
    (tracked : c.Tracked) : c.SingleAssignment g where
  counted := h.counted
  bounded := h.counted ▸ h.length_statements_le
  named k text hk := by
    rw [statementTexts, List.getElem?_map, Option.map_eq_some_iff] at hk
    obtain ⟨s, hs, rfl⟩ := hk
    obtain ⟨rfl, -⟩ := h.written k s hs
    exact ⟨_, String.append_assoc⟩
  texts := h.getElem?_texts
  distinct := h.nodup_nodes
  follows := h.written
  tracked := tracked

/-- The numbers of variables fit where the ids fit: the statements compute distinct nodes, and there
are no more of these than ids below a bound. -/
theorem Context.SingleAssignment.counter_le {g : Graph} {c : Context} (h : c.SingleAssignment g)
    {bound : ℕ} (below : ∀ id ∈ g.ids, id.val.toNat < bound) : c.counter ≤ bound := by
  have distinct : (c.statements.map fun s => s.node.val.toNat).Nodup := by
    have injective : Function.Injective fun id : NodeId => id.val.toNat := by
      rintro ⟨a⟩ ⟨b⟩ same
      exact congrArg NodeId.mk (UInt32.toNat_inj.mp same)
    have mapped := h.distinct.map injective
    rwa [List.map_map] at mapped
  have sub : (c.statements.map fun s => s.node.val.toNat) ⊆ List.range bound := by
    intro n hn
    obtain ⟨s, hs, rfl⟩ := List.mem_map.mp hn
    obtain ⟨k, hk⟩ := List.mem_iff_getElem?.mp hs
    obtain ⟨-, table, node, args, -, follows⟩ := h.follows k s hk
    exact List.mem_range.mpr (below _ (Graph.mem_ids_of_node? follows.stored))
  have length := (distinct.subperm sub).length_le
  rwa [List.length_map, List.length_range, ← h.counted] at length

/-- After any requests on a new context every variable is assigned once, and before it is used. -/
theorem Graph.afterRequests_singleAssignment (g : Graph) (requests : List NodeId) :
    (g.afterRequests requests).SingleAssignment g := by
  have sound := (Context.sound_empty g).steps Context.tracked_empty (g.afterRequests_steps requests)
  exact sound.singleAssignment (g.afterRequests_tracked requests)

/-- On a graph that was reached by adding and pushing nodes, the counter stays a number of 32 bits,
whatever is requested. -/
theorem Graph.Grown.counter_lt {g : Graph} (grown : g.Grown) (requests : List NodeId) :
    (g.afterRequests requests).counter < UInt32.size := by
  have counted := (g.afterRequests_singleAssignment requests).counter_le grown.toNat_lt
  have size : UInt32.size = 4294967296 := rfl
  omega

/-- **Single assignment over whole runs.** After any requests on a new context, in any order and
whatever their answers, one request more leaves a context in which every variable is assigned once
and before it is used. It keeps every symbol, and adds to the statements and to the nodes with a
stand-in value only at the end; when it is answered, the path is as it was. The graph need not even
be valid. -/
theorem lower_singleAssignment (g : Graph) (requests : List NodeId) (id : NodeId) :
    let before := g.afterRequests requests
    let after := (g.lower id before).1
    after.SingleAssignment g ∧
      (∀ i s, before.symbol? i = some s → after.symbol? i = some s) ∧
      before.Extends after ∧
      ∀ s, (g.lower id before).2 = .ok s →
        after.path = before.path ∧ after.onPath = before.onPath := by
  have tracked := g.afterRequests_tracked requests
  have request := Graph.lower_request (g := g) tracked id
  refine ⟨?_, fun i s h => request.steps.symbol? tracked h, request.steps.extends tracked,
    fun s h => ?_⟩
  · rw [← g.afterRequests_concat requests id]
    exact g.afterRequests_singleAssignment (requests ++ [id])
  · exact request.path [s] (by rw [h]; rfl)

end NodeGraph
