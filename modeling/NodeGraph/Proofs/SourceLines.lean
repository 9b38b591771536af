import Mathlib.Data.String.Basic
import NodeGraph.Proofs.Hygiene
import NodeGraph.Proofs.Literals
import NodeGraph.Proofs.Liveness

/-!
# The lines of a source

A source is written line by line, and each line is ended by a line feed. The lines can be told from
the source when none of them has a line feed of its own. A procedure's own texts have none, but an
author's texts may: the name of a parameter stands in the statements that take it, and an operator,
a waveform or a tag without a meaning is noted after its stand-in value. A line feed in one of them
is written as it is, and what follows it stands on a line of its own, outside the note
(`split_brokenGraph`).

`split_source_iff` says exactly when the source is its lines: when neither a note nor a name that is
mentioned has a line feed, so whenever the live nodes have none in their texts.
-/

namespace NodeGraph

open Relation

/-! ### Texts of one line -/

/-- A text without a line feed. -/
def OneLine (text : String) : Prop := '\n' ∉ text.toList

instance (text : String) : Decidable (OneLine text) :=
  inferInstanceAs (Decidable ('\n' ∉ text.toList))

@[simp] theorem oneLine_append {a b : String} : OneLine (a ++ b) ↔ OneLine a ∧ OneLine b := by
  simp [OneLine]

/-- Texts with something between them have no other characters than the texts and that. -/
theorem not_mem_intercalate {c : Char} {separator : String} (h : c ∉ separator.toList)
    (texts : List String) :
    c ∉ (separator.intercalate texts).toList ↔ ∀ t ∈ texts, c ∉ t.toList := by
  induction texts with
  | nil => simp
  | cons t texts ih =>
    cases texts with
    | nil => simp
    | cons u texts =>
      rw [String.intercalate_cons_cons, String.toList_append, String.toList_append,
        List.mem_append, List.mem_append, not_or, not_or, ih, List.forall_mem_cons]
      simp [h]

@[simp] theorem oneLine_intercalate {separator : String} (h : OneLine separator)
    (texts : List String) :
    OneLine (separator.intercalate texts) ↔ ∀ t ∈ texts, OneLine t :=
  not_mem_intercalate h texts

theorem Numeral.oneLine {text : String} (h : Numeral text) : OneLine text :=
  fun broken => absurd (h '\n' broken) (by decide)

@[simp] theorem Literal.oneLine_text (l : Literal) : OneLine l.text := l.numeral_text.oneLine

@[simp] theorem oneLine_repr (n : Nat) : OneLine n.repr := (numeral_repr n).oneLine

@[simp] theorem oneLine_variableName (k : Nat) : OneLine (variableName k) := by
  simp +decide [variableName]

/-- No piece of a split text has the character it was split at. -/
theorem not_mem_of_mem_splitOn {α : Type} [DecidableEq α] {a : α} {l piece : List α}
    (h : piece ∈ l.splitOn a) : a ∉ piece := by
  induction l generalizing piece with
  | nil => simp_all
  | cons b l ih =>
    rw [List.splitOn_cons_eq_if_modifyHead] at h
    split at h
    · rcases List.mem_cons.mp h with rfl | h
      · exact List.not_mem_nil
      · exact ih h
    · rename_i hb
      obtain ⟨first, others, hsplit⟩ := List.exists_cons_of_ne_nil (List.splitOn_ne_nil a l)
      rw [hsplit, List.modifyHead_cons] at h
      rcases List.mem_cons.mp h with rfl | h
      · rw [List.mem_cons, not_or]
        exact ⟨fun e => hb (beq_iff_eq.mpr e.symm), ih (hsplit ▸ List.mem_cons_self)⟩
      · exact ih (hsplit ▸ List.mem_cons_of_mem _ h)

/-- A text of lines, each ended by a line feed, is split into them exactly when each is one line. -/
theorem splitToList_join_iff (lines : List String) :
    (String.join (lines.map (· ++ "\n"))).splitToList (· == '\n') = lines ++ [""] ↔
      ∀ line ∈ lines, OneLine line := by
  have joined : (String.join (lines.map (· ++ "\n"))).toList =
      ['\n'].intercalate ((lines ++ [""]).map String.toList) := by
    induction lines with
    | nil => rfl
    | cons line lines ih =>
      rw [List.map_cons, String.join_cons, String.toList_append, ih, List.cons_append,
        List.map_cons, List.intercalate_cons_of_ne_nil (by simp)]
      simp
  have split : (String.join (lines.map (· ++ "\n"))).splitToList (· == '\n') =
      (((String.join (lines.map (· ++ "\n"))).toList).splitOn '\n').map String.ofList :=
    String.splitToList_of_valid _ _
  rw [split]
  constructor
  · intro h line hline
    have piece : line ∈ lines ++ [""] := List.mem_append_left _ hline
    rw [← h] at piece
    obtain ⟨cs, hcs, rfl⟩ := List.mem_map.mp piece
    rw [OneLine, String.toList_ofList]
    exact not_mem_of_mem_splitOn hcs
  · intro h
    have pieces : ∀ cs ∈ (lines ++ [""]).map String.toList, '\n' ∉ cs := by
      intro cs hcs
      obtain ⟨line, hline, rfl⟩ := List.mem_map.mp hcs
      rcases List.mem_append.mp hline with hline | hline
      · exact h line hline
      · rw [List.mem_singleton.mp hline]
        decide
    rw [joined, List.splitOn_intercalate '\n' pieces (by simp), List.map_map]
    exact (List.map_congr_left fun _ _ => String.ofList_toList).trans (List.map_id _)

/-! ### Right-hand sides -/

/-- The operands that a right-hand side mentions, in order. -/
def Expr.operands {α : Type} : Expr α → List α
  | .zero | .literal _ => []
  | .copy a => [a]
  | .chain _ a b rest => a :: b :: rest
  | .map a _ _ _ _ | .clamp a _ _ | .abs a => [a]
  | .wave _ angle => [angle.operand]
  | .polar _ (some (x, y)) _ _ => [x, y]
  | .polar _ none _ _ => []

@[simp] theorem oneLine_primitiveName (p : Primitive) : OneLine p.name := by
  cases p <;> decide

@[simp] theorem oneLine_call (p : Primitive) (arguments : List String) :
    OneLine (p.call arguments) ↔ ∀ t ∈ arguments, OneLine t := by
  simp +decide [Primitive.call]

@[simp] theorem oneLine_step (op : Chain) (sofar next : String) :
    OneLine (op.step sofar next) ↔ OneLine sofar ∧ OneLine next := by
  cases op <;> simp +decide [Chain.step]

/-- A repeated operation is one line when all it is applied to are. -/
theorem oneLine_foldl (op : Chain) (first : String) (rest : List Symbol) :
    OneLine (rest.foldl (fun t s => op.step t s.text) first) ↔
      OneLine first ∧ ∀ s ∈ rest, OneLine s.text := by
  induction rest generalizing first with
  | nil => simp
  | cons s rest ih => rw [List.foldl_cons, ih, oneLine_step, List.forall_mem_cons, and_assoc]

theorem Angle.oneLine_text (angle : Angle Symbol) :
    OneLine angle.text ↔ OneLine angle.operand.text := by
  unfold Angle.text
  simp only
  split <;> simp +decide

theorem Waveform.oneLine_text (form : Waveform) (angle : String) :
    OneLine (form.text angle) ↔ OneLine angle := by
  unfold Waveform.text
  split <;> simp +decide

/-- **A right-hand side is one line exactly when the operands it mentions are.** -/
theorem Expr.oneLine_text (e : Expr Symbol) :
    OneLine e.text ↔ ∀ a ∈ e.operands, OneLine a.text := by
  cases e with
  | zero | literal | copy | map | clamp | abs => simp +decide [Expr.text, Expr.operands]
  | chain op a b rest => simp [Expr.text, Expr.operands, oneLine_foldl, and_assoc]
  | wave form angle =>
    simp [Expr.text, Expr.operands, Waveform.oneLine_text, Angle.oneLine_text]
  | polar op point cx cy =>
    rcases point with _ | ⟨x, y⟩ <;> simp +decide [Expr.text, Expr.operands]

theorem Statement.oneLine_text (s : Statement) :
    OneLine s.text ↔ (∀ a ∈ s.expr.operands, OneLine a.text) ∧
      ∀ detail, s.unhandled = some detail → OneLine detail := by
  unfold Statement.text
  cases s.unhandled <;> simp +decide [Expr.oneLine_text]

/-! ### Sources -/

/-- The symbols that stand in what is returned. -/
def Returned.operands : Returned → List Symbol
  | .zero => []
  | .one s => [s]
  | .tuple ss => ss

/-- The symbols that a source mentions: those of the right-hand sides and of the return line. -/
def Compiled.mentioned (p : Compiled) (mode : ReturnMode) : List Symbol :=
  p.body.flatMap (·.expr.operands) ++ (p.returned mode).operands

/-- The texts of a signature are one line each. -/
structure Signature.Unbroken (signature : Signature) : Prop where
  name : OneLine signature.name
  params : ∀ param ∈ signature.params, OneLine param.name ∧ OneLine param.type
  returnType : OneLine signature.returnType

@[simp] theorem Compiled.oneLine_tuple (items : List String) :
    OneLine (tuple items) ↔ ∀ t ∈ items, OneLine t := by
  simp +decide [tuple]

theorem Compiled.oneLine_headerLines (p : Compiled) : ∀ line ∈ p.headerLines, OneLine line := by
  have names : OneLine (if (p.used.map Primitive.name).isEmpty then "none"
      else ", ".intercalate (p.used.map Primitive.name)) := by
    split
    · decide
    · simp +decide
  unfold headerLines
  simp only [List.forall_mem_cons, oneLine_append]
  exact ⟨by decide, ⟨by decide, names⟩, by simp⟩

theorem Compiled.oneLine_importLines (p : Compiled) : ∀ line ∈ p.importLines, OneLine line := by
  unfold importLines Primitive.imports
  split <;> decide

theorem Compiled.oneLine_signatureLine (p : Compiled) {options : Options}
    (unbroken : options.signature.Unbroken) : OneLine (p.signatureLine options) := by
  have params : ∀ t ∈ options.signature.params.map fun param => param.name ++ ": " ++ param.type,
      OneLine t := by
    intro t ht
    obtain ⟨param, hparam, rfl⟩ := List.mem_map.mp ht
    simp +decide [unbroken.params param hparam]
  have result : OneLine (if p.returnsTuple options.mode then
      tuple (p.outputs.map fun _ => options.signature.returnType)
      else options.signature.returnType) := by
    split
    · simp [unbroken.returnType]
    · exact unbroken.returnType
  unfold signatureLine
  simp only [oneLine_append, oneLine_tuple]
  exact ⟨⟨⟨⟨⟨by decide, unbroken.name⟩, params⟩, by decide⟩, result⟩, by decide⟩

theorem Compiled.oneLine_returnValue (p : Compiled) {options : Options}
    (unbroken : options.signature.Unbroken) : OneLine (p.returnValue options) ↔
      ∀ s ∈ (p.returned options.mode).operands, OneLine s.text := by
  rw [p.returnValue_eq]
  cases p.returned options.mode <;>
    simp +decide [Returned.text, Returned.operands, unbroken.returnType]

/-- The lines of a source are one line each exactly when its statements and what it returns are. -/
theorem Compiled.oneLine_lines (p : Compiled) {options : Options}
    (unbroken : options.signature.Unbroken) : (∀ line ∈ p.lines options, OneLine line) ↔
      (∀ s ∈ p.body, OneLine s.text) ∧ OneLine (p.returnValue options) := by
  have header : ∀ line ∈ if options.header then p.headerLines else [], OneLine line := by
    split
    · exact p.oneLine_headerLines
    · simp
  have signature := p.oneLine_signatureLine unbroken
  unfold lines statementTexts
  simp only [List.forall_mem_append, List.forall_mem_cons, List.forall_mem_map, oneLine_append]
  constructor
  · rintro ⟨⟨-, body⟩, ⟨-, value⟩, -⟩
    exact ⟨fun s hs => (body s hs).2, value⟩
  · rintro ⟨body, value⟩
    exact ⟨⟨⟨⟨header, p.oneLine_importLines⟩, by decide, signature, by simp⟩,
      fun s hs => ⟨by decide, body s hs⟩⟩, ⟨by decide, value⟩, by simp⟩

/-- A source is its lines exactly when no note of what was not handled has a line feed, and no
symbol that is mentioned. -/
theorem Graph.splitToList_source_iff {g : Graph} {p : Compiled} (compiled : g.compile = .ok p)
    {options : Options} (unbroken : options.signature.Unbroken) :
    (p.source options).splitToList (· == '\n') = p.lines options ++ [""] ↔
      (∀ q ∈ p.placeholders, OneLine q.detail) ∧
        ∀ s ∈ p.mentioned options.mode, OneLine s.text := by
  rw [Compiled.source, splitToList_join_iff, p.oneLine_lines unbroken,
    p.oneLine_returnValue unbroken, Compiled.mentioned, List.forall_mem_append]
  have notes : (∀ q ∈ p.placeholders, OneLine q.detail) ↔
      ∀ s ∈ p.body, ∀ detail, s.unhandled = some detail → OneLine detail := by
    constructor
    · intro h s hs detail hd
      exact h ⟨s.node, detail⟩ ((mem_placeholders_iff compiled).mpr ⟨s, hs, rfl, hd⟩)
    · intro h q hq
      obtain ⟨s, hs, -, hd⟩ := (mem_placeholders_iff compiled).mp hq
      exact h s hs q.detail hd
  simp only [notes, Statement.oneLine_text, List.mem_flatMap]
  constructor
  · rintro ⟨body, returned⟩
    refine ⟨fun s hs => (body s hs).2, ?_, returned⟩
    rintro a ⟨s, hs, ha⟩
    exact (body s hs).1 a ha
  · rintro ⟨notes, operands, returned⟩
    exact ⟨fun s hs => ⟨fun a ha => operands a ⟨s, hs, ha⟩, notes s hs⟩, returned⟩

/-! ### Texts of nodes -/

/-- The texts that the author of a node chose. -/
def Kind.texts : Kind → List String
  | .input text | .math text _ | .wave text _ | .polar text _ _ | .other text => [text]
  | .constant _ | .valueOutput | .bufferOutput | .audioOutput => []

/-- A statement with a note is that of a stand-in value. -/
theorem Lowered.eq_standIn {α : Type} {l : Lowered α} {expr : Expr α} {detail : String}
    (h : l.statement? = some (expr, some detail)) : l = .standIn expr detail := by
  cases l <;> cases h
  rfl

/-- A note has no line feed that is not in a text of its node. -/
theorem Node.oneLine_detail {α : Type} {node : Node} {args : List α} {expr : Expr α}
    {detail : String} (h : node.lowered args = .standIn expr detail)
    (clean : ∀ t ∈ node.kind.texts, OneLine t) : OneLine detail := by
  unfold Node.lowered at h
  cases hk : node.kind with
  | math op params =>
    simp only [hk, Kind.texts, List.mem_singleton, forall_eq] at h clean
    unfold loweredMath at h
    split at h <;> cases h
    unfold mathDetail
    split
    · simp +decide
    · rename_i known _ _
      cases known <;> simp +decide [MathOp.name]
    · simp +decide [clean]
  | wave form phase =>
    simp only [hk, Kind.texts, List.mem_singleton, forall_eq] at h clean
    unfold loweredWave at h
    repeat' split at h
    all_goals cases h
    all_goals simp +decide [clean]
  | polar op centerX centerY =>
    simp only [hk, Kind.texts, List.mem_singleton, forall_eq] at h clean
    unfold loweredPolar at h
    split at h <;> cases h
    simp +decide [clean]
  | other tag =>
    simp only [hk, Kind.texts, List.mem_singleton, forall_eq] at h clean
    cases h
    simp +decide [clean]
  | input | constant => rw [hk] at h; cases h
  | valueOutput | bufferOutput | audioOutput => rw [hk] at h; cases args <;> cases h

/-- What an operator computes mentions nothing but its operands. -/
theorem MathOp.mem_of_mem_operands {α : Type} {op : MathOp} {domain : Domain}
    {params : List Binary64} {args : List α} {expr : Expr α}
    (h : op.expr? domain params args = some expr) {a : α} (ha : a ∈ expr.operands) : a ∈ args := by
  unfold MathOp.expr? at h
  split at h
  · split at h <;> cases h
    exact ha
  · split at h <;> cases h
    exact ha
  · split at h <;> cases h
    exact List.mem_cons.mpr (.inl (List.mem_singleton.mp ha))
  · split at h <;> cases h
    exact List.mem_cons.mpr (.inl (List.mem_singleton.mp ha))
  · obtain ⟨operand, first, rfl⟩ := Option.map_eq_some_iff.mp h
    rw [List.mem_singleton.mp ha]
    exact List.mem_of_mem_head? first

/-- What a node becomes mentions nothing but the operands of its inputs. -/
theorem Node.mem_of_mem_operands {α : Type} {node : Node} {args : List α} {expr : Expr α}
    {unhandled : Option String} (h : (node.lowered args).statement? = some (expr, unhandled))
    {a : α} (ha : a ∈ expr.operands) : a ∈ args := by
  unfold Node.lowered at h
  cases hk : node.kind with
  | math op params =>
    simp only [hk, loweredMath] at h
    split at h
    · rename_i found
      cases h
      obtain ⟨known, -, found⟩ := Option.bind_eq_some_iff.mp found
      exact MathOp.mem_of_mem_operands found ha
    · cases h
      cases args with
      | nil => exact ha
      | cons operand rest => exact List.mem_cons.mpr (.inl (List.mem_singleton.mp ha))
  | wave form phase =>
    simp only [hk, loweredWave] at h
    split at h
    · cases h
      cases ha
    · split at h <;> cases h
      · exact List.mem_cons.mpr (.inl (List.mem_singleton.mp ha))
      · cases ha
  | polar op centerX centerY =>
    simp only [hk, loweredPolar] at h
    split at h <;> cases h
    · cases ha
    · rcases args with _ | ⟨x, _ | ⟨y, rest⟩⟩
      · cases ha
      · cases ha
      · simp only [Expr.operands, List.mem_cons, List.not_mem_nil, or_false] at ha ⊢
        tauto
  | valueOutput | bufferOutput | audioOutput =>
    rw [hk] at h
    cases args <;> cases h
    cases ha
  | constant | other => rw [hk] at h; cases h; cases ha
  | input => rw [hk] at h; cases h

/-- A parameter that a symbol names is that of a node below the node of the symbol. -/
theorem Graph.Steps.parameter {g : Graph} {c : Context} (s : g.Steps .empty c) {id : NodeId}
    {name : String} (h : c.symbol? id = some (.parameter name)) :
    ∃ node ∈ g.nodes, node.kind = .input name ∧ ReflTransGen g.DependsOn id node.id := by
  refine s.invariant (P := fun c => ∀ id name, c.symbol? id = some (.parameter name) →
      ∃ node ∈ g.nodes, node.kind = .input name ∧ ReflTransGen g.DependsOn id node.id)
    Context.tracked_empty (fun _ _ h => (nomatch h)) (fun _ _ _ h => h) ?_ id name h
  intro c node args _ stored bound ih id name hid
  rw [Context.symbol?_settle] at hid
  split at hid
  · subst id
    rcases Lowered.cases (node.lowered args) with ⟨t, ht, -⟩ | ⟨expr, unhandled, hs⟩
    · rw [Context.settle_of_standsFor ht] at hid
      cases hid
      obtain ⟨_, hk, hname⟩ | ⟨-, first⟩ := Node.standsFor?_eq_some ht
      · cases hname
        exact ⟨node, mem_of_node? stored, hk, .refl⟩
      · obtain ⟨i, hi, hbound⟩ := bound.of_mem_args (List.mem_of_mem_head? first)
        obtain ⟨below, hn, hk, reach⟩ := ih i name hbound
        exact ⟨below, hn, hk, .head ((dependsOn_iff stored).mpr hi) reach⟩
    · rw [(Context.settle_of_statement hs).1] at hid
      cases hid
  · exact ih id name hid

/-- The symbols that a source mentions are those of live nodes. -/
theorem Graph.exists_live_of_mentioned {g : Graph} {p : Compiled} (compiled : g.compile = .ok p)
    {mode : ReturnMode} {s : Symbol} (h : s ∈ p.mentioned mode) :
    ∃ id, g.Live id ∧ g.lowerOutputs.1.symbol? id = some s := by
  obtain ⟨-, hout, -, -, -⟩ := compile_eq_ok compiled
  suffices bound : ∃ id, g.lowerOutputs.1.symbol? id = some s by
    obtain ⟨id, hid⟩ := bound
    exact ⟨id, (mem_order_iff_live hout id).mp ((Context.mem_order_iff _ id).mpr ⟨s, hid⟩), hid⟩
  rcases List.mem_append.mp h with h | h
  · obtain ⟨t, ht, ha⟩ := List.mem_flatMap.mp h
    obtain ⟨node, args, -, follows⟩ := follows_of_mem_body compiled ht
    obtain ⟨i, -, hi⟩ := follows.bound.of_mem_args (Node.mem_of_mem_operands follows.rule ha)
    exact ⟨i, hi⟩
  · have output : s ∈ p.outputs := by
      unfold Compiled.returned at h
      split at h
      · exact h
      · split at h
        · cases h
        · rename_i outputs
          rw [outputs, List.mem_singleton.mp h]
          exact List.mem_cons_self
    obtain ⟨i, -, hi⟩ := (g.lowerOutputs_request.binds p.outputs hout).of_mem_args output
    exact ⟨i, hi⟩

/-- **When a source is its lines.** Let a graph compile, and let the texts of the signature have no
line feed. Splitting the source at its line feeds gives the lines it was written from, that is the
comments, the imports, an empty line, the signature, each statement behind its indent and the return
line, exactly when no note of what was not handled has a line feed and no symbol that is mentioned
has one. So it gives them whenever the live nodes have no line feed in their texts. -/
theorem split_source_iff {g : Graph} {p : Compiled} (compiled : g.compile = .ok p)
    {options : Options} (unbroken : options.signature.Unbroken) :
    ((p.source options).splitToList (· == '\n') = p.lines options ++ [""] ↔
      (∀ q ∈ p.placeholders, OneLine q.detail) ∧
        ∀ s ∈ p.mentioned options.mode, OneLine s.text) ∧
    ((∀ node ∈ g.nodes, g.Live node.id → ∀ t ∈ node.kind.texts, OneLine t) →
      (p.source options).splitToList (· == '\n') = p.lines options ++ [""]) := by
  have iff := Graph.splitToList_source_iff compiled unbroken
  refine ⟨iff, fun clean => iff.mpr ⟨fun q hq => ?_, fun s hs => ?_⟩⟩
  · obtain ⟨s, hs, -, note⟩ := (Graph.mem_placeholders_iff compiled).mp hq
    obtain ⟨node, args, live, follows⟩ := Graph.follows_of_mem_body compiled hs
    have rule := follows.rule
    rw [note] at rule
    have standIn := Lowered.eq_standIn rule
    exact Node.oneLine_detail standIn (clean node (Graph.mem_of_node? follows.stored) live)
  · obtain ⟨id, live, bound⟩ := Graph.exists_live_of_mentioned compiled hs
    cases s with
    | var k => exact oneLine_variableName k
    | parameter name =>
      obtain ⟨node, hn, hk, reach⟩ := g.lowerOutputs_request.steps.parameter bound
      obtain ⟨output, hout, above⟩ := live
      exact clean node hn ⟨output, hout, above.trans reach⟩ name (by simp [hk, Kind.texts])

/-- The texts of `sharedGraph` have no line feed, so its source is ten lines. -/
theorem split_source_sharedGraph :
    let options := Options.plain (.plain "f" [⟨"time", "float"⟩])
    ∃ p, sharedGraph.compile = .ok p ∧ options.signature.Unbroken ∧
      (p.source options).splitToList (· == '\n') = p.lines options ++ [""] ∧
      (p.lines options).length = 10 := by
  intro options
  obtain ⟨p, hp⟩ : ∃ p, sharedGraph.compile = .ok p := ⟨_, rfl⟩
  have unbroken : options.signature.Unbroken := ⟨by decide, by decide, by decide⟩
  have clean : ∀ node ∈ sharedGraph.nodes, ∀ t ∈ node.kind.texts, OneLine t := by decide +kernel
  have count : sharedGraph.compile.toOption.map (fun p => (p.lines options).length) = some 10 := by
    decide +kernel
  rw [hp, Except.toOption, Option.map_some, Option.some.injEq] at count
  exact ⟨p, hp, unbroken, (split_source_iff hp unbroken).2 fun node hn _ => clean node hn, count⟩

/-- A node of an unknown kind, whose tag goes on after a line feed. -/
def brokenGraph : Graph :=
  ⟨[⟨⟨0⟩, .control, .other "blur\n  return 7", []⟩, ⟨⟨1⟩, .control, .valueOutput, [⟨0⟩]⟩], ⟨2⟩⟩

/-- In `brokenGraph` the second half of the tag is a line of its own, which returns from the
procedure before its return line is reached. -/
theorem split_brokenGraph :
    let options := Options.plain (.plain "f" [])
    options.signature.Unbroken ∧ ∃ p, brokenGraph.compile = .ok p ∧
      p.lines options = ["# Generated by ngc (node graph compiler)", "# primitives: none",
        "import primitives", "", "proc f(): int =",
        "  let v0 = 0  # unhandled node kind: blur\n  return 7", "  return int(v0)"] ∧
      (p.source options).splitToList (· == '\n') = ["# Generated by ngc (node graph compiler)",
        "# primitives: none", "import primitives", "", "proc f(): int =",
        "  let v0 = 0  # unhandled node kind: blur", "  return 7", "  return int(v0)", ""] ∧
      (p.source options).splitToList (· == '\n') ≠ p.lines options ++ [""] := by
  intro options
  have unbroken : options.signature.Unbroken := ⟨by decide, by decide, by decide⟩
  obtain ⟨p, hp⟩ : ∃ p, brokenGraph.compile = .ok p := ⟨_, rfl⟩
  have lines : brokenGraph.compile.toOption.map (·.lines options) =
      some ["# Generated by ngc (node graph compiler)", "# primitives: none",
        "import primitives", "", "proc f(): int =",
        "  let v0 = 0  # unhandled node kind: blur\n  return 7", "  return int(v0)"] := by
    decide +kernel
  rw [hp, Except.toOption, Option.map_some, Option.some.injEq] at lines
  have source : p.source options = String.join (["# Generated by ngc (node graph compiler)",
      "# primitives: none", "import primitives", "", "proc f(): int =",
      "  let v0 = 0  # unhandled node kind: blur", "  return 7", "  return int(v0)"].map
        (· ++ "\n")) := by
    rw [Compiled.source, lines]
    decide +kernel
  have split := source ▸ (splitToList_join_iff _).mpr (by decide)
  refine ⟨unbroken, p, hp, lines, split, ?_⟩
  rw [split, lines]
  decide

end NodeGraph
