import NodeGraph.Proofs.Unfolding

/-!
# The meaning of a procedure

A graph has a meaning without being compiled: the value of a node is computed from the values of its
inputs (`Node.value`), over the tree of the node (`Graph.valueWithin`). A body has a meaning as a
program: each statement computes its right-hand side from the values of the names it mentions, and
assigns it to the name it defines (`execute`). Both are given for every `Meaning`, that is for any
values and any reading of the literals and operators.

`compile_preserves_meaning` says that the two agree. The names of a body are texts, so a parameter
called like a variable would be overwritten: the theorem asks that no parameter node has such a name
(`Graph.NamesApart`).
-/

namespace NodeGraph

/-- A reading of the literals and operators of generated code, over any values. -/
structure Meaning (V : Type*) where
  zero : V
  literal : Literal → V
  plus : V → V → V
  times : V → V → V
  waveAdd : V → V → V
  waveMultiply : V → V → V
  map : V → V → V → V → V → V
  clamp : V → V → V → V
  abs : V → V
  /-- A value plus a shift, as an angle of one turn. -/
  angle : V → Nat → V
  isin : V → V
  icos : V → V
  /-- The conditional of the square wave, of an angle. -/
  square : V → V
  polarDistance : V → V → V → V → V
  polarAngle : V → V → V → V → V

variable {V : Type*} (m : Meaning V)

/-! ### Graphs -/

/-- The value of a mathematical node. An operator that has no meaning, or has too few inputs or the
wrong number of parameters, passes its first input on. -/
def mathValue (domain : Domain) (op : String) (params : List Binary64) (args : List V) : V :=
  let number (v : Binary64) : V := m.literal ⟨domain, v⟩
  match op, args, params with
  | "add", a :: b :: rest, _ =>
    (b :: rest).foldl (match domain with | .control => m.plus | .visual => m.waveAdd) a
  | "mul", a :: b :: rest, _ =>
    (b :: rest).foldl (match domain with | .control => m.times | .visual => m.waveMultiply) a
  | "map", a :: _, [p, q, r, s] => m.map a (number p) (number q) (number r) (number s)
  | "clamp", a :: _, [] => m.clamp a (number (.ofNat 0)) (number (.ofNat 1000))
  | "clamp", a :: _, [low] => m.clamp a (number low) (number (.ofNat 1000))
  | "clamp", a :: _, low :: high :: _ => m.clamp a (number low) (number high)
  | "abs", a :: _, _ => m.abs a
  | _, a :: _, _ => a
  | _, [], _ => m.zero

/-- The value of a wave node. -/
def waveValue (form : String) (phase : Binary64) (args : List V) : V :=
  match form, args with
  | "sin", a :: _ => m.isin (m.angle a (phaseShift phase))
  | "cos", a :: _ => m.icos (m.angle a (phaseShift phase))
  | "saw", a :: _ => m.angle a (phaseShift phase)
  | "square", a :: _ => m.square (m.angle a (phaseShift phase))
  | _, _ => m.zero

/-- The value of a polar node about a centre, of the point of its first two inputs or else of the
ambient one. -/
def polarValue (op : String) (ambient : V × V) (centerX centerY : V) (args : List V) : V :=
  let (x, y) :=
    match args with
    | x :: y :: _ => (x, y)
    | _ => ambient
  match op with
  | "distance" => m.polarDistance x y centerX centerY
  | "angle" => m.polarAngle x y centerX centerY
  | _ => m.zero

/-- The value of a node, from the values of the parameters and of its inputs. -/
def Node.value (env : String → V) (node : Node) (args : List V) : V :=
  let number (v : Binary64) : V := m.literal ⟨node.domain, v⟩
  match node.kind with
  | .input name => env name
  | .constant value => number value
  | .math op params => mathValue m node.domain op params args
  | .wave form phase => waveValue m form phase args
  | .polar op centerX centerY =>
    polarValue m op (env "x", env "y") (number centerX) (number centerY) args
  | .valueOutput | .bufferOutput | .audioOutput => args.head?.getD m.zero
  | .other _ => m.zero

/-- The value of a node over its tree, when it is no higher than `depth`. -/
def Graph.valueWithin (g : Graph) (env : String → V) (depth : Nat) (id : NodeId) : Option V :=
  g.foldWithin (Node.value m env) depth id

/-! ### Bodies -/

/-- One step of a repeated operation. -/
def Chain.apply : Chain → V → V → V
  | .plus => m.plus
  | .times => m.times
  | .waveAdd => m.waveAdd
  | .waveMultiply => m.waveMultiply

/-- A waveform at an angle. -/
def Waveform.apply : Waveform → V → V
  | .sin => m.isin
  | .cos => m.icos
  | .saw => id
  | .square => m.square

/-- A polar coordinate. -/
def PolarOp.apply : PolarOp → V → V → V → V → V
  | .distance => m.polarDistance
  | .angle => m.polarAngle

/-- The value of a right-hand side, from the values of the names it mentions. -/
def Expr.value (store : String → V) : Expr Symbol → V
  | .zero => m.zero
  | .literal l => m.literal l
  | .copy a => store a.text
  | .chain op a b rest => (b :: rest).foldl (fun v s => op.apply m v (store s.text)) (store a.text)
  | .map a p q r s => m.map (store a.text) (m.literal p) (m.literal q) (m.literal r) (m.literal s)
  | .clamp a low high => m.clamp (store a.text) (m.literal low) (m.literal high)
  | .abs a => m.abs (store a.text)
  | .wave form angle => form.apply m (m.angle (store angle.operand.text) angle.shift)
  | .polar op (some (x, y)) cx cy =>
    op.apply m (store x.text) (store y.text) (m.literal cx) (m.literal cy)
  | .polar op none cx cy => op.apply m (store "x") (store "y") (m.literal cx) (m.literal cy)

/-- Execute a statement: assign its value to the name it defines. -/
def Statement.execute (store : String → V) (s : Statement) : String → V :=
  Function.update store (variableName s.index) (s.expr.value m store)

/-- Execute statements in order. -/
def execute (store : String → V) (body : List Statement) : String → V :=
  body.foldl (Statement.execute m) store

/-! ### Rules

What the rule of a node gives has the value of the node, when the operands are read as names. -/

/-- The operator that is found by a text is called so. -/
theorem eq_name_of_find? {α : Type} {all : List α} {name : α → String} {text : String} {a : α}
    (h : all.find? (fun a => name a == text) = some a) : text = name a :=
  (beq_iff_eq.mp (List.find?_some (p := fun a => name a == text) h)).symm

/-- No operator is called by a text that finds none. -/
theorem ne_name_of_find? {α : Type} {all : List α} {name : α → String} {text : String}
    (h : all.find? (fun a => name a == text) = none) {a : α} (ha : a ∈ all) : text ≠ name a :=
  fun e => List.find?_eq_none.mp h a ha (beq_iff_eq.mpr e.symm)

section

variable (store : String → V)

theorem mathValue_of_unknown {domain : Domain} {op : String} {params : List Binary64}
    {args : List V} (h : ∀ known : MathOp, op ≠ known.name) :
    mathValue m domain op params args = args.head?.getD m.zero := by
  unfold mathValue
  split
  · exact absurd rfl (h .add)
  · exact absurd rfl (h .mul)
  · exact absurd rfl (h .map)
  · exact absurd rfl (h .clamp)
  · exact absurd rfl (h .clamp)
  · exact absurd rfl (h .clamp)
  · exact absurd rfl (h .abs)
  · rfl
  · rfl

theorem loweredMath_value (domain : Domain) (op : String) (params : List Binary64)
    (args : List Symbol) {expr : Expr Symbol} {unhandled : Option String}
    (h : (loweredMath domain op params args).statement? = some (expr, unhandled)) :
    expr.value m store = mathValue m domain op params (args.map fun s => store s.text) := by
  unfold loweredMath at h
  cases hop : MathOp.ofName? op with
  | none =>
    have unknown (known : MathOp) : op ≠ known.name :=
      ne_name_of_find? hop (by cases known <;> decide)
    rw [mathValue_of_unknown m unknown]
    rw [hop] at h
    cases args <;> cases h <;> rfl
  | some known =>
    rw [hop] at h
    obtain rfl : op = known.name := eq_name_of_find? hop
    cases known with
    | add =>
      rcases args with _ | ⟨a, _ | ⟨b, rest⟩⟩ <;> cases h
      · rfl
      · rfl
      · cases domain <;>
          simp [Expr.value, mathValue, MathOp.name, Domain.sum, Chain.apply, List.foldl_map]
    | mul =>
      rcases args with _ | ⟨a, _ | ⟨b, rest⟩⟩ <;> cases h
      · rfl
      · rfl
      · cases domain <;>
          simp [Expr.value, mathValue, MathOp.name, Domain.product, Chain.apply, List.foldl_map]
    | map =>
      rcases args with _ | ⟨a, rest⟩ <;>
        rcases params with _ | ⟨p, _ | ⟨q, _ | ⟨r, _ | ⟨t, _ | ⟨u, more⟩⟩⟩⟩⟩ <;> cases h <;> rfl
    | clamp =>
      rcases args with _ | ⟨a, rest⟩ <;> rcases params with _ | ⟨low, _ | ⟨high, more⟩⟩ <;>
        cases h <;> rfl
    | abs => rcases args with _ | ⟨a, rest⟩ <;> cases h <;> rfl

theorem loweredWave_value (form : String) (phase : Binary64) (args : List Symbol)
    {expr : Expr Symbol} {unhandled : Option String}
    (h : (loweredWave form phase args).statement? = some (expr, unhandled)) :
    expr.value m store = waveValue m form phase (args.map fun s => store s.text) := by
  unfold loweredWave at h
  rcases args with _ | ⟨a, rest⟩
  · cases h
    simp [Expr.value, waveValue]
  · cases hform : Waveform.ofName? form with
    | none =>
      have unknown (known : Waveform) : form ≠ known.name :=
        ne_name_of_find? hform (by cases known <;> decide)
      simp only [hform] at h
      cases h
      unfold waveValue
      split
      · exact absurd rfl (unknown .sin)
      · exact absurd rfl (unknown .cos)
      · exact absurd rfl (unknown .saw)
      · exact absurd rfl (unknown .square)
      · rfl
    | some known =>
      obtain rfl : form = known.name := eq_name_of_find? hform
      simp only [hform] at h
      cases h
      cases known <;> rfl

theorem loweredPolar_value (domain : Domain) (op : String) (cx cy : Binary64) (args : List Symbol)
    {expr : Expr Symbol} {unhandled : Option String}
    (h : (loweredPolar domain op cx cy args).statement? = some (expr, unhandled)) :
    expr.value m store = polarValue m op (store "x", store "y") (m.literal ⟨domain, cx⟩)
      (m.literal ⟨domain, cy⟩) (args.map fun s => store s.text) := by
  unfold loweredPolar at h
  cases hop : PolarOp.ofName? op with
  | none =>
    have unknown (known : PolarOp) : op ≠ known.name :=
      ne_name_of_find? hop (by cases known <;> decide)
    simp only [hop] at h
    cases h
    simp only [polarValue]
    split
    · exact absurd rfl (unknown .distance)
    · exact absurd rfl (unknown .angle)
    · rfl
  | some known =>
    obtain rfl : op = known.name := eq_name_of_find? hop
    simp only [hop] at h
    cases h
    rcases args with _ | ⟨x, _ | ⟨y, rest⟩⟩ <;> cases known <;> rfl

/-- The right-hand side of a node has the value of the node. -/
theorem Node.value_of_statement {node : Node} {args : List Symbol} {expr : Expr Symbol}
    {unhandled : Option String} (h : (node.lowered args).statement? = some (expr, unhandled)) :
    expr.value m store = node.value m store (args.map fun s => store s.text) := by
  unfold Node.lowered at h
  unfold Node.value
  cases hk : node.kind with
  | input name => rw [hk] at h; cases h
  | constant value => rw [hk] at h; cases h; rfl
  | math op params => rw [hk] at h; exact loweredMath_value m store _ _ _ _ h
  | wave form phase => rw [hk] at h; exact loweredWave_value m store _ _ _ h
  | polar op cx cy => rw [hk] at h; exact loweredPolar_value m store _ _ _ _ _ h
  | valueOutput | bufferOutput | audioOutput =>
    rw [hk] at h
    cases args <;> cases h
    rfl
  | other tag => rw [hk] at h; cases h; rfl

/-- The symbol that a node stands for has the value of the node. -/
theorem Node.value_of_standsFor {node : Node} {args : List Symbol} {s : Symbol}
    (h : (node.lowered args).standsFor? = some s) :
    store s.text = node.value m store (args.map fun s => store s.text) := by
  obtain ⟨name, hk, rfl⟩ | ⟨hk, hs⟩ := Node.standsFor?_eq_some h
  · simp [Node.value, hk, Symbol.text]
  · cases args with
    | nil => cases hs
    | cons a rest =>
      cases hs
      unfold Node.value
      cases hkind : node.kind with
      | valueOutput | bufferOutput | audioOutput => rfl
      | _ => rw [hkind] at hk; cases hk

/-- The value of a node depends on no names but the ambient ones and its own. -/
theorem Node.value_congr {node : Node} {store env : String → V} (hx : store "x" = env "x")
    (hy : store "y" = env "y") (hname : ∀ name, node.kind = .input name → store name = env name)
    (args : List V) : node.value m store args = node.value m env args := by
  unfold Node.value
  cases hk : node.kind with
  | input name => exact hname name hk
  | polar op cx cy => simp only [hx, hy]
  | _ => rfl

end

/-! ### Names -/

theorem variableName_inj {j k : Nat} (h : variableName j = variableName k) : j = k := by
  have digits := congrArg String.toList ((String.append_right_inj "v").mp h)
  rw [Nat.toString_eq_repr, Nat.toString_eq_repr, Nat.toList_repr, Nat.toList_repr] at digits
  rw [← Nat.ofDigitChars_ten_toDigits (n := j), digits, Nat.ofDigitChars_ten_toDigits]

theorem variableName_ne_of_head {name : String} (h : name.toList.head? ≠ some 'v') (k : Nat) :
    name ≠ variableName k := by
  rintro rfl
  simp [variableName] at h

/-- No parameter node is called like a variable, that is `v` and a decimal number. -/
def Graph.NamesApart (g : Graph) : Prop :=
  ∀ node ∈ g.nodes, ∀ name, node.kind = .input name → ∀ k, name ≠ variableName k

/-- A name that no statement defines keeps its value, through all of them. -/
theorem execute_of_not_defined (env : String → V) (body : List Statement) {name : String}
    (h : ∀ s ∈ body, name ≠ variableName s.index) : execute m env body name = env name := by
  induction body generalizing env with
  | nil => rfl
  | cons s body ih =>
    have head := h s List.mem_cons_self
    rw [execute, List.foldl_cons]
    refine (ih _ fun t ht => h t (List.mem_cons_of_mem _ ht)).trans ?_
    rw [Statement.execute, Function.update_of_ne head]

/-- A name that is not that of a variable keeps its value. -/
theorem execute_of_ne (env : String → V) (body : List Statement) {name : String}
    (h : ∀ k, name ≠ variableName k) : execute m env body name = env name :=
  execute_of_not_defined m env body fun s _ => h s.index

theorem execute_concat (env : String → V) (body : List Statement) (s : Statement) :
    execute m env (body ++ [s]) = s.execute m (execute m env body) := by
  simp [execute, List.foldl_append]

/-- A symbol that comes before a statement keeps its value when the statement is executed. -/
theorem Symbol.Before.execute {g : Graph} (apart : g.NamesApart) {s : Symbol} {t : Statement}
    (h : s.Before g t.index) (store : String → V) : t.execute m store s.text = store s.text := by
  refine Function.update_of_ne ?_ _ _
  cases s with
  | parameter name =>
    obtain ⟨node, hn, hk⟩ := h
    exact apart node hn name hk _
  | var index =>
    intro e
    have : index < t.index := h
    rw [variableName_inj e] at this
    exact absurd this (Nat.lt_irrefl _)

/-! ### Agreement -/

namespace Context

/-- The symbols of a context have the values of their nodes, after its statements. -/
structure Agrees (g : Graph) (env : String → V) (c : Context) : Prop where
  sound : c.Sound g
  value : ∀ id s, c.symbol? id = some s →
    g.valueWithin m env c.symbols.length id = some (execute m env c.statements s.text)

/-- The value of a node whose inputs have symbols. -/
theorem Agrees.value_succ {g : Graph} {env : String → V} {c : Context} (h : c.Agrees m g env)
    {node : Node} {args : List Symbol} (stored : g.node? node.id = some node)
    (bound : c.Binds node.inputs args) :
    g.valueWithin m env (c.symbols.length + 1) node.id =
      some (node.value m env (args.map fun s => execute m env c.statements s.text)) := by
  refine Graph.foldWithin_succ stored (List.forall₂_map_right_iff.mpr ?_)
  exact List.Forall₂.imp h.value bound

/-- The ambient names and the name of a parameter node keep the values that they were given. -/
theorem value_after {g : Graph} (apart : g.NamesApart) {env : String → V} {node : Node}
    (hn : node ∈ g.nodes) (body : List Statement) (args : List V) :
    node.value m (execute m env body) args = node.value m env args := by
  refine Node.value_congr m ?_ ?_ (fun name hk => ?_) args
  · exact execute_of_ne m env body (variableName_ne_of_head (by decide))
  · exact execute_of_ne m env body (variableName_ne_of_head (by decide))
  · exact execute_of_ne m env body (apart node hn name hk)

/-- Settling a node keeps the agreement: the values of earlier symbols stay, and the new symbol has
the value of its node. -/
theorem Agrees.settle {g : Graph} (apart : g.NamesApart) {env : String → V} {c : Context}
    (h : c.Agrees m g env) {node : Node} {args : List Symbol} (unbound : c.symbol? node.id = none)
    (stored : g.node? node.id = some node) (bound : c.Binds node.inputs args) :
    (c.settle node args).1.Agrees m g env := by
  -- It is enough to know what the new statements leave in the old and the new symbol.
  suffices key : (∀ id s, c.symbol? id = some s →
      execute m env (c.settle node args).1.statements s.text = execute m env c.statements s.text) ∧
      execute m env (c.settle node args).1.statements (c.settle node args).2.text =
        node.value m env (args.map fun s => execute m env c.statements s.text) by
    refine ⟨h.sound.settle unbound stored bound, fun id s hs => ?_⟩
    rw [symbols_settle, List.length_cons]
    rw [symbol?_settle] at hs
    split at hs
    · cases hs
      subst id
      rw [h.value_succ m stored bound, key.2]
    · rw [key.1 id s hs]
      exact Graph.foldWithin_mono (Nat.le_succ _) (h.value id s hs)
  have hn := Graph.mem_of_node? stored
  rw [← value_after m apart hn c.statements]
  rcases Lowered.cases (node.lowered args) with ⟨s, hs, -⟩ | ⟨expr, unhandled, hs⟩
  · rw [settle_of_standsFor hs]
    exact ⟨fun _ _ _ => rfl, Node.value_of_standsFor m _ hs⟩
  · obtain ⟨hvar, hwrote⟩ := settle_of_statement (c := c) hs
    rw [hwrote.statements, hvar, execute_concat]
    refine ⟨fun id s hs => (h.sound.inScope id s hs).execute m apart _, ?_⟩
    rw [Statement.execute, Symbol.text, Function.update_self]
    exact Node.value_of_statement m _ hs

theorem Agrees.of_steps {g : Graph} (apart : g.NamesApart) (env : String → V) {c : Context}
    (s : g.Steps .empty c) : c.Agrees m g env :=
  s.invariant tracked_empty ⟨sound_empty g, fun _ _ h => (nomatch h)⟩
    (fun _ path onPath h => ⟨h.sound.walk path onPath, h.value⟩)
    fun _ _ _ unbound stored bound h => h.settle m apart unbound stored bound

end Context

/-! ### What is returned -/

/-- The value that a procedure returns. -/
inductive Returned where
  /-- The number zero. -/
  | zero
  /-- A symbol, converted to the return type. -/
  | one (s : Symbol)
  /-- Some symbols, each converted to the return type, as a tuple. -/
  | tuple (ss : List Symbol)

/-- The text of what is returned. -/
def Returned.text (type : String) : Returned → String
  | .zero => "0"
  | .one s => type ++ "(" ++ s.text ++ ")"
  | .tuple ss => Compiled.tuple (ss.map fun s => type ++ "(" ++ s.text ++ ")")

/-- The values that are returned. -/
def Returned.values (convert : V → V) (store : String → V) : Returned → List V
  | .zero => [m.zero]
  | .one s => [convert (store s.text)]
  | .tuple ss => ss.map fun s => convert (store s.text)

/-- What a compiled graph returns. -/
def Compiled.returned (p : Compiled) (mode : ReturnMode) : Returned :=
  if p.returnsTuple mode then .tuple p.outputs
  else
    match p.outputs with
    | [] => .zero
    | s :: _ => .one s

/-- The return line of the source is the text of what is returned. -/
theorem Compiled.returnValue_eq (p : Compiled) (options : Options) :
    p.returnValue options = (p.returned options.mode).text options.signature.returnType := by
  unfold returnValue returned
  split
  · rfl
  · cases p.outputs <;> rfl

/-- All values as a tuple when there are several and they are asked for, else the first one, else
zero. -/
theorem Compiled.values_returned (p : Compiled) (mode : ReturnMode) (convert : V → V)
    (store : String → V) :
    (p.returned mode).values m convert store =
      if mode = .all ∧ 1 < p.outputs.length then p.outputs.map fun s => convert (store s.text)
      else [((p.outputs.map fun s => convert (store s.text)).head?).getD m.zero] := by
  unfold returned
  by_cases h : mode = .all ∧ 1 < p.outputs.length
  · rw [if_pos h, if_pos (by simp [returnsTuple, h])]
    rfl
  · rw [if_neg h, if_neg (by simpa [returnsTuple] using h)]
    cases p.outputs <;> rfl

/-! ### Compiled graphs -/

/-- **Lowering preserves meaning.** When a graph compiles and no parameter node is called like a
variable, then for every reading of the literals and operators and all values of the names,
executing the body leaves in the variable of each output the value of the output over its tree, at
every depth that has room for all nodes. The return line gives these values, converted: all of them
when several are asked for, else the first, or zero when there is none. What is executed is what is
written: line `k` of the body assigns to `v{k}` the right-hand side of statement `k`. -/
theorem compile_preserves_meaning {g : Graph} {p : Compiled} (compiled : g.compile = .ok p)
    (apart : g.NamesApart) (env : String → V) :
    ∃ values : List V,
      List.Forall₂ (fun (node : Node) v => ∀ depth, g.nodes.length ≤ depth →
        g.valueWithin m env depth node.id = some v) g.outputs values ∧
      p.outputs.map (fun s => execute m env p.body s.text) = values ∧
      (∀ (options : Options) (convert : V → V), ∃ returned : Returned,
        p.returnValue options = returned.text options.signature.returnType ∧
        returned.values m convert (execute m env p.body) =
          if options.mode = .all ∧ 1 < values.length then values.map convert
          else [(values.head?.map convert).getD m.zero]) ∧
      ∀ k : Nat, (statementTexts p.body)[k]? =
        p.body[k]?.map fun s => assignmentText k s.expr s.unhandled := by
  obtain ⟨-, hout, hbody, -, -⟩ := Graph.compile_eq_ok compiled
  have request := g.lowerOutputs_request
  have agrees := Context.Agrees.of_steps m apart env request.steps
  have room := agrees.sound.length_symbols_le
  refine ⟨_, ?_, rfl, fun options convert =>
    ⟨p.returned options.mode, p.returnValue_eq options, ?_⟩, Graph.getElem?_texts compiled⟩
  · have bound := List.forall₂_map_left_iff.mp (request.binds p.outputs hout)
    rw [List.forall₂_map_right_iff, hbody]
    exact bound.imp fun node s hs depth hd =>
      Graph.foldWithin_mono (room.trans hd) (agrees.value node.id s hs)
  · rw [p.values_returned, List.length_map]
    simp only [List.map_map, Function.comp_def, List.head?_map, Option.map_map]

/-- Generated code read over the integers, with the wave forms as their angles. -/
def Meaning.integers : Meaning Int where
  zero := 0
  literal l := l.value.truncate
  plus := (· + ·)
  times := (· * ·)
  waveAdd := (· + ·)
  waveMultiply := (· * ·)
  map v _ _ low _ := v + low
  clamp v low high := max low (min v high)
  abs v := v.natAbs
  angle v shift := (v + shift) % fullTurn
  isin := id
  icos := id
  square v := if v < halfTurn then unitAmplitude else -unitAmplitude
  polarDistance x y cx cy := (x - cx) + (y - cy)
  polarAngle x y cx cy := (x - cx) - (y - cy)

/-- In `sharedGraph`, with `time` as `100`, the shared product is `10000`, the first output is twice
the product and `time`, and the second one is the angle of the first. -/
theorem compile_preserves_meaning_sharedGraph :
    ∃ p, sharedGraph.compile = .ok p ∧ sharedGraph.NamesApart ∧
      p.outputs.map (fun s => execute Meaning.integers (fun _ => 100) p.body s.text) =
        [20100, 2100] := by
  obtain ⟨p, hp⟩ : ∃ p, sharedGraph.compile = .ok p := ⟨_, rfl⟩
  have apart : sharedGraph.NamesApart := by
    intro node hn name hk
    have : name = "time" := by
      simp only [sharedGraph, List.mem_cons, List.not_mem_nil, or_false] at hn
      rcases hn with rfl | rfl | rfl | rfl | rfl | rfl | rfl | rfl <;> cases hk
      rfl
    rw [this]
    exact variableName_ne_of_head (by decide)
  obtain ⟨values, hvalues, hout, -⟩ :=
    compile_preserves_meaning Meaning.integers hp apart fun _ => 100
  refine ⟨p, hp, apart, hout.trans ?_⟩
  have ids : sharedGraph.outputs.map (·.id) = [⟨2⟩, ⟨8⟩] := by decide +kernel
  have first : sharedGraph.valueWithin .integers (fun _ => 100) 8 ⟨2⟩ = some 20100 := by
    decide +kernel
  have second : sharedGraph.valueWithin .integers (fun _ => 100) 8 ⟨8⟩ = some 2100 := by
    decide +kernel
  have found : (sharedGraph.outputs.map (·.id)).mapM
      (sharedGraph.valueWithin .integers (fun _ => 100) 8) = some values := by
    rw [mapM_eq_some_iff, List.forall₂_map_left_iff]
    exact hvalues.imp fun _ _ h => h 8 (by decide)
  rw [ids] at found
  simpa [first, second, eq_comm] using found

end NodeGraph
