import NodeGraph.Proofs.Literals
import NodeGraph.Proofs.Liveness
import NodeGraph.Proofs.Meaning

/-!
# Primitives and imports

A procedure imports what its body calls. Which primitive a node calls can be read off its operator,
its domain and the number of its inputs and parameters (`Node.primitive?`), without lowering it; and
a right-hand side calls a primitive when its text is a call of it, whatever its operands are called
(`Expr.Calls`). `compile_imports` says that both agree with the primitives that are told of a
compiled graph, and how the comments and imports above the procedure follow from these.
-/

namespace NodeGraph

/-! ### The primitive of a node -/

/-- The primitive that a mathematical node calls, by the numbers of its parameters and inputs. -/
def mathPrimitive? (domain : Domain) (op : String) (params inputs : Nat) : Option Primitive :=
  match op with
  | "add" => if domain = .visual ∧ 2 ≤ inputs then some .waveAdd else none
  | "mul" => if domain = .visual ∧ 2 ≤ inputs then some .waveMultiply else none
  | "map" => if 1 ≤ inputs ∧ params = 4 then some .map else none
  | "clamp" => if 1 ≤ inputs then some .clamp else none
  | _ => none

/-- The primitive that a wave node calls, by the number of its inputs. -/
def wavePrimitive? (form : String) (inputs : Nat) : Option Primitive :=
  match form with
  | "sin" => if 1 ≤ inputs then some .isin else none
  | "cos" => if 1 ≤ inputs then some .icos else none
  | _ => none

/-- The primitive that a polar node calls, with any number of inputs. -/
def polarPrimitive? (op : String) : Option Primitive :=
  match op with
  | "distance" => some .polarDistance
  | "angle" => some .polarAngle
  | _ => none

/-- The primitive that a node calls. -/
def Node.primitive? (node : Node) : Option Primitive :=
  match node.kind with
  | .math op params => mathPrimitive? node.domain op params.length node.inputs.length
  | .wave form _ => wavePrimitive? form node.inputs.length
  | .polar op _ _ => polarPrimitive? op
  | _ => none

section

variable {α : Type} {args : List α} {expr : Expr α} {unhandled : Option String}

theorem primitive?_loweredMath {domain : Domain} {op : String} {params : List Binary64}
    (h : (loweredMath domain op params args).statement? = some (expr, unhandled)) :
    expr.primitive? = mathPrimitive? domain op params.length args.length := by
  unfold loweredMath at h
  cases hop : MathOp.ofName? op with
  | none =>
    have unknown (known : MathOp) : op ≠ known.name :=
      ne_name_of_find? hop (by cases known <;> decide)
    rw [hop] at h
    unfold mathPrimitive?
    split
    · exact absurd rfl (unknown .add)
    · exact absurd rfl (unknown .mul)
    · exact absurd rfl (unknown .map)
    · exact absurd rfl (unknown .clamp)
    · cases args <;> cases h <;> rfl
  | some known =>
    rw [hop] at h
    obtain rfl : op = known.name := eq_name_of_find? hop
    cases known with
    | add | mul =>
      rcases args with _ | ⟨a, _ | ⟨b, rest⟩⟩ <;> cases h <;> cases domain <;>
        simp [Expr.primitive?, Chain.primitive?, Domain.sum, Domain.product, mathPrimitive?,
          MathOp.name]
    | map =>
      rcases args with _ | ⟨a, rest⟩ <;>
        rcases params with _ | ⟨p, _ | ⟨q, _ | ⟨r, _ | ⟨t, _ | ⟨u, more⟩⟩⟩⟩⟩ <;> cases h <;>
        simp [Expr.primitive?, mathPrimitive?, MathOp.name]
    | clamp =>
      rcases args with _ | ⟨a, rest⟩ <;> cases h <;>
        simp [Expr.primitive?, mathPrimitive?, MathOp.name]
    | abs => rcases args with _ | ⟨a, rest⟩ <;> cases h <;> rfl

theorem primitive?_loweredWave {form : String} {phase : Binary64}
    (h : (loweredWave form phase args).statement? = some (expr, unhandled)) :
    expr.primitive? = wavePrimitive? form args.length := by
  unfold loweredWave at h
  rcases args with _ | ⟨a, rest⟩
  · cases h
    unfold wavePrimitive?
    split <;> rfl
  · cases hform : Waveform.ofName? form with
    | none =>
      have unknown (known : Waveform) : form ≠ known.name :=
        ne_name_of_find? hform (by cases known <;> decide)
      simp only [hform] at h
      cases h
      unfold wavePrimitive?
      split
      · exact absurd rfl (unknown .sin)
      · exact absurd rfl (unknown .cos)
      · rfl
    | some known =>
      obtain rfl : form = known.name := eq_name_of_find? hform
      simp only [hform] at h
      cases h
      cases known <;>
        simp [Expr.primitive?, Waveform.primitive?, wavePrimitive?, Waveform.name]

theorem primitive?_loweredPolar {domain : Domain} {op : String} {centerX centerY : Binary64}
    (h : (loweredPolar domain op centerX centerY args).statement? = some (expr, unhandled)) :
    expr.primitive? = polarPrimitive? op := by
  unfold loweredPolar at h
  cases hop : PolarOp.ofName? op with
  | none =>
    have unknown (known : PolarOp) : op ≠ known.name :=
      ne_name_of_find? hop (by cases known <;> decide)
    simp only [hop] at h
    cases h
    unfold polarPrimitive?
    split
    · exact absurd rfl (unknown .distance)
    · exact absurd rfl (unknown .angle)
    · rfl
  | some known =>
    obtain rfl : op = known.name := eq_name_of_find? hop
    simp only [hop] at h
    cases h
    cases known <;> rfl

/-- What a node becomes calls the primitive of the node. -/
theorem Node.primitive?_of_statement {node : Node} (same : args.length = node.inputs.length)
    (h : (node.lowered args).statement? = some (expr, unhandled)) :
    expr.primitive? = node.primitive? := by
  unfold Node.lowered at h
  unfold Node.primitive?
  rw [← same]
  cases hk : node.kind with
  | math op params => rw [hk] at h; exact primitive?_loweredMath h
  | wave form phase => rw [hk] at h; exact primitive?_loweredWave h
  | polar op centerX centerY => rw [hk] at h; exact primitive?_loweredPolar h
  | constant value => rw [hk] at h; cases h; rfl
  | other tag => rw [hk] at h; cases h; rfl
  | input name => rw [hk] at h; cases h
  | valueOutput | bufferOutput | audioOutput =>
    rw [hk] at h
    cases args <;> cases h
    rfl

end

/-- A node that calls a primitive needs a statement. -/
theorem Node.emits_of_primitive? {node : Node} {q : Primitive} (h : node.primitive? = some q) :
    node.emits = true := by
  unfold Node.primitive? at h
  unfold Node.emits
  cases hk : node.kind with
  | constant | math | wave | polar | other => rfl
  | input | valueOutput | bufferOutput | audioOutput => rw [hk] at h; cases h

/-! ### Calls -/

/-- A right-hand side with other operands. -/
def Expr.over {α β : Type} (f : α → β) : Expr α → Expr β
  | .zero => .zero
  | .literal l => .literal l
  | .copy a => .copy (f a)
  | .chain op a b rest => .chain op (f a) (f b) (rest.map f)
  | .map a p q r s => .map (f a) p q r s
  | .clamp a low high => .clamp (f a) low high
  | .abs a => .abs (f a)
  | .wave form angle => .wave form ⟨f angle.operand, angle.shift⟩
  | .polar op point cx cy => .polar op (point.map (Prod.map f f)) cx cy

/-- The right-hand side is a call of a primitive: its text is one, whatever its operands are
called. -/
def Expr.Calls (e : Expr Symbol) (q : Primitive) : Prop :=
  ∀ f : Symbol → Symbol, ∃ arguments, (e.over f).text = q.call arguments

namespace Primitive

theorem name_injective {p q : Primitive} (h : p.name = q.name) : p = q := by
  have all : ∀ p ∈ all, ∀ q ∈ all, p.name = q.name → p = q := by decide
  exact all p (mem_all p) q (mem_all q) h

theorem toList_call (p : Primitive) (arguments : List String) :
    (p.call arguments).toList =
      p.name.toList ++ '(' :: ((", ".intercalate arguments).toList ++ [')']) := by
  simp [call]

/-- A call tells the primitive that is called. -/
theorem call_injective {p q : Primitive} {arguments arguments' : List String}
    (h : p.call arguments = q.call arguments') : p = q := by
  have callee (p : Primitive) (arguments : List String) :
      (p.call arguments).toList.takeWhile (· != '(') = p.name.toList := by
    have name : p.name.toList.all (· != '(') = true := by cases p <;> decide
    rw [toList_call, List.takeWhile_append_of_pos (List.all_eq_true.mp name)]
    simp
  refine name_injective (String.toList_injective ?_)
  rw [← callee p arguments, h, callee q arguments']

/-- A call starts with the first letter of a primitive. -/
theorem head?_call (p : Primitive) (arguments : List String) :
    ∃ c ∈ ['i', 'm', 'c', 'p', 'w'], (p.call arguments).toList.head? = some c := by
  rw [toList_call]
  cases p <;> simp [name]

end Primitive

theorem Expr.primitive?_over {α β : Type} (f : α → β) (e : Expr α) :
    (e.over f).primitive? = e.primitive? := by
  cases e <;> rfl

/-- A right-hand side with a primitive is written as a call of it. -/
theorem Expr.exists_call {e : Expr Symbol} {q : Primitive} (h : e.primitive? = some q) :
    ∃ arguments, e.text = q.call arguments := by
  cases e with
  | zero | literal | copy | abs => cases h
  | map | clamp => cases h; exact ⟨_, rfl⟩
  | polar op point cx cy => cases h; exact ⟨_, rfl⟩
  | wave form angle => cases form <;> cases h <;> exact ⟨_, rfl⟩
  | chain op a b rest =>
    -- The outermost call is the last one of the chain.
    obtain ⟨front, last, hlast⟩ : ∃ front last, b :: rest = front ++ [last] :=
      ⟨_, _, (List.dropLast_append_getLast (List.cons_ne_nil b rest)).symm⟩
    rw [Expr.text, hlast, List.foldl_concat]
    cases op <;> cases h <;> exact ⟨_, rfl⟩

/-- A sum or a product starts as its first operand does. -/
theorem head?_foldl_step {op : Chain} (native : op.primitive? = none) {first : String} {c : Char}
    (head : first.toList.head? = some c) (rest : List Symbol) :
    (rest.foldl (fun t s => op.step t s.text) first).toList.head? = some c := by
  induction rest generalizing first with
  | nil => exact head
  | cons s rest ih =>
    refine ih ?_
    cases op with
    | plus | times => simp [Chain.step, head]
    | waveAdd | waveMultiply => cases native

/-- A right-hand side without a primitive, with all operands called `x`, starts with a character
that no primitive starts with, unless it is a literal. -/
theorem Expr.head?_text {e : Expr Symbol} (none : e.primitive? = none) :
    (∃ l, e = .literal l) ∨ ∃ c ∈ ['0', 'x', 'a', '('],
      (e.over fun _ => .parameter "x").text.toList.head? = some c := by
  cases e with
  | literal l => exact .inl ⟨l, rfl⟩
  | zero => exact .inr ⟨'0', by decide, by decide⟩
  | copy a => exact .inr ⟨'x', by decide, by simp [Expr.over, Expr.text, Symbol.text]⟩
  | abs a => exact .inr ⟨'a', by decide, by simp [Expr.over, Expr.text]⟩
  | chain op a b rest =>
    have first : (Symbol.parameter "x").text.toList.head? = some 'x' := by decide
    exact .inr ⟨'x', by decide, head?_foldl_step none first _⟩
  | wave form angle =>
    cases form with
    | sin | cos => cases none
    | square => exact .inr ⟨'(', by decide, by simp [Expr.over, Expr.text, Waveform.text]⟩
    | saw =>
      by_cases shift : angle.shift = 0
      · exact .inr ⟨'x', by decide,
          by simp [Expr.over, Expr.text, Waveform.text, Angle.text, shift, Symbol.text]⟩
      · exact .inr ⟨'(', by decide,
          by simp [Expr.over, Expr.text, Waveform.text, Angle.text, shift]⟩
  | map | clamp | polar => cases none

/-- A right-hand side without a primitive is not written as a call of one, when its operands are
not. -/
theorem Expr.text_ne_call {e : Expr Symbol} (none : e.primitive? = none) (q : Primitive)
    (arguments : List String) : (e.over fun _ => .parameter "x").text ≠ q.call arguments := by
  intro h
  rcases Expr.head?_text none with ⟨l, rfl⟩ | ⟨c, hc, head⟩
  · -- A literal may start with a letter, as `inf` does, but it has no bracket.
    have bracket : '(' ∈ (q.call arguments).toList := by simp [Primitive.toList_call]
    rw [← h] at bracket
    exact absurd (l.numeral_text '(' bracket) (by decide)
  · have apart : ∀ c ∈ ['0', 'x', 'a', '('], c ∉ ['i', 'm', 'c', 'p', 'w'] := by simp
    obtain ⟨d, hd, head'⟩ := q.head?_call arguments
    rw [← h, head, Option.some.injEq] at head'
    exact apart c hc (head' ▸ hd)

theorem Expr.calls_iff {e : Expr Symbol} {q : Primitive} : e.Calls q ↔ e.primitive? = some q := by
  constructor
  · intro calls
    obtain ⟨arguments, h⟩ := calls fun _ => .parameter "x"
    cases found : e.primitive? with
    | none => exact absurd h (text_ne_call found q arguments)
    | some r =>
      obtain ⟨arguments', h'⟩ := exists_call ((primitive?_over _ e).trans found)
      rw [Primitive.call_injective (h'.symm.trans h)]
  · intro h f
    exact exists_call ((primitive?_over f e).trans h)

/-! ### Compiled graphs -/

/-- A node calls the primitive that its statement calls. -/
theorem Graph.exists_statement_iff {g : Graph} {p : Compiled} (compiled : g.compile = .ok p)
    (q : Primitive) : (∃ s ∈ p.body, s.expr.primitive? = some q) ↔
      ∃ node ∈ g.nodes, g.Live node.id ∧ node.primitive? = some q := by
  constructor
  · rintro ⟨s, hs, calls⟩
    obtain ⟨node, args, live, follows⟩ := follows_of_mem_body compiled hs
    rw [Node.primitive?_of_statement follows.bound.length_eq.symm follows.rule] at calls
    exact ⟨node, mem_of_node? follows.stored, live, calls⟩
  · rintro ⟨node, stored, live, calls⟩
    obtain ⟨s, hs, same⟩ := exists_mem_body compiled stored live (Node.emits_of_primitive? calls)
    obtain ⟨args, -, follows⟩ := follows_of_node compiled hs stored same
    refine ⟨s, hs, ?_⟩
    rw [Node.primitive?_of_statement follows.bound.length_eq.symm follows.rule, calls]

/-- The modules that are imported: that of the primitives, and the numeric library for some. -/
theorem Compiled.importLines_eq (p : Compiled) :
    p.importLines = "import primitives" ::
      if ∃ q ∈ p.used, q ∈ [.map, .clamp, .polarDistance, .polarAngle] then ["import std/math"]
      else [] := by
  have numeric (q : Primitive) :
      q.needsNumeric = true ↔ q ∈ [.map, .clamp, .polarDistance, .polarAngle] := by
    cases q <;> decide
  unfold importLines Primitive.imports
  by_cases h : ∃ q ∈ p.used, q ∈ [.map, .clamp, .polarDistance, .polarAngle]
  · rw [if_pos h, if_pos (by simpa only [List.any_eq_true, numeric] using h)]
    rfl
  · rw [if_neg h, if_neg (by simpa only [List.any_eq_true, numeric] using h)]
    rfl

/-- **Imports follow from use.** Let a graph compile. A primitive is told exactly when a live node
calls it, by its operator, domain, inputs and parameters, and exactly when the right-hand side of a
statement is a call of it. The primitives are told in listed order, each once. And the source starts
with the comments, if they are wanted, which list the primitives or say that there are none, then
with the imports, of `primitives` always and of `std/math` exactly when `map`, `clamp`,
`polarDistance` or `polarAngle` is told; an empty line and the signature follow. -/
theorem compile_imports {g : Graph} {p : Compiled} (compiled : g.compile = .ok p)
    (options : Options) :
    (∀ q, q ∈ p.used ↔ ∃ node ∈ g.nodes, g.Live node.id ∧ node.primitive? = some q) ∧
    (∀ q, q ∈ p.used ↔ ∃ s ∈ p.body, s.expr.Calls q) ∧
    p.used.Sublist Primitive.all ∧
    ∃ rest, p.lines options =
      (if options.header then
        ["# Generated by ngc (node graph compiler)",
          "# primitives: " ++
            if p.used = [] then "none" else ", ".intercalate (p.used.map Primitive.name)]
      else []) ++
      ("import primitives" ::
        if ∃ q ∈ p.used, q ∈ [.map, .clamp, .polarDistance, .polarAngle] then ["import std/math"]
        else []) ++
      "" :: p.signatureLine options :: rest := by
  have used q := Graph.mem_used_iff compiled (q := q)
  refine ⟨fun q => (used q).trans (Graph.exists_statement_iff compiled q), fun q => ?_, ?_, ?_⟩
  · rw [used q]
    exact exists_congr fun s => and_congr_right fun _ => Expr.calls_iff.symm
  · rw [(Graph.compile_lists compiled).1]
    exact List.filter_sublist
  · refine ⟨(statementTexts p.body).map ("  " ++ ·) ++ ["  return " ++ p.returnValue options], ?_⟩
    rw [Compiled.lines, p.importLines_eq, Compiled.headerLines]
    simp only [List.isEmpty_iff, List.map_eq_nil_iff, List.append_assoc, List.cons_append,
      List.nil_append]

/-- In `sharedGraph` a sine is live, so `isin` is told, and nothing needs the numeric library. -/
theorem compile_imports_sharedGraph :
    let options := Options.plain (.plain "f" [])
    ∃ p, sharedGraph.compile = .ok p ∧ p.used = [.isin] ∧ (∃ s ∈ p.body, s.expr.Calls .isin) ∧
      (p.lines options).take 4 = ["# Generated by ngc (node graph compiler)", "# primitives: isin",
        "import primitives", ""] := by
  intro options
  obtain ⟨p, hp⟩ : ∃ p, sharedGraph.compile = .ok p := ⟨_, rfl⟩
  obtain ⟨-, calls, -, rest, lines⟩ := compile_imports hp options
  have used : sharedGraph.compile.toOption.map (·.used) = some [.isin] := by decide +kernel
  rw [hp, Except.toOption, Option.map_some, Option.some.injEq] at used
  refine ⟨p, hp, used, (calls .isin).mp (used ▸ List.mem_singleton_self _), ?_⟩
  rw [lines, used]
  rfl

end NodeGraph
