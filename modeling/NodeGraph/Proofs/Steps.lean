import Mathlib.Data.List.Chain
import Mathlib.Data.List.Nodup
import Mathlib.Logic.Relation
import NodeGraph.Procedure
import NodeGraph.Validity

/-!
# Lowering as a run of steps

Whatever a request does to a `Context` is done in two kinds of steps (`Graph.Step`): it enters a
node that has no symbol and is not on the path, or it leaves the innermost node of the path and
settles it with the symbols of its inputs. A request is a run of such steps whether it is answered
or ends with a fault (`lower_request`), so what both steps preserve holds after any requests
(`Graph.Steps.invariant`).

Of the answer, `Graph.Request` says what the steps do not: an answered request leaves the path as it
was and its symbol is remembered; a fault stands at the end of a dependency chain that starts at the
node asked for, and the nodes of the chain are what was added to the path.
-/

namespace NodeGraph

open Relation

/-! ### What a node becomes -/

namespace Lowered

/-- The symbol of a node that needs no statement. -/
def standsFor? : Lowered Symbol → Option Symbol
  | .parameter name => some (.parameter name)
  | .same s => some s
  | .assign _ | .standIn _ _ => none

/-- The right-hand side of a node that needs a statement, and what was not handled in it. -/
def statement? {α : Type} : Lowered α → Option (Expr α × Option String)
  | .parameter _ | .same _ => none
  | .assign expr => some (expr, none)
  | .standIn expr detail => some (expr, some detail)

theorem cases (l : Lowered Symbol) :
    (∃ s, l.standsFor? = some s ∧ l.statement? = none) ∨
      ∃ expr unhandled, l.statement? = some (expr, unhandled) := by
  cases l with
  | parameter name => exact .inl ⟨_, rfl, rfl⟩
  | same s => exact .inl ⟨_, rfl, rfl⟩
  | assign expr => exact .inr ⟨_, _, rfl⟩
  | standIn expr detail => exact .inr ⟨_, _, rfl⟩

end Lowered

/-- A stand-in value calls no primitive. -/
theorem Node.primitive?_standIn {α : Type} {node : Node} {args : List α} {expr : Expr α}
    {detail : String} (h : node.lowered args = .standIn expr detail) : expr.primitive? = none := by
  unfold Node.lowered loweredMath loweredWave loweredPolar at h
  cases hk : node.kind with
  | math op params =>
    simp only [hk] at h
    split at h
    · cases h
    · cases h; split <;> rfl
  | _ =>
    simp only [hk] at h
    repeat' split at h
    all_goals cases h
    all_goals rfl

/-! ### The parts of a context -/

namespace Context

@[simp] theorem symbols_call (c : Context) (p : Option Primitive) :
    (c.call p).symbols = c.symbols := by
  cases p <;> rfl

@[simp] theorem counter_call (c : Context) (p : Option Primitive) :
    (c.call p).counter = c.counter := by
  cases p <;> rfl

@[simp] theorem statements_call (c : Context) (p : Option Primitive) :
    (c.call p).statements = c.statements := by
  cases p <;> rfl

@[simp] theorem placeholders_call (c : Context) (p : Option Primitive) :
    (c.call p).placeholders = c.placeholders := by
  cases p <;> rfl

@[simp] theorem path_call (c : Context) (p : Option Primitive) : (c.call p).path = c.path := by
  cases p <;> rfl

@[simp] theorem onPath_call (c : Context) (p : Option Primitive) :
    (c.call p).onPath = c.onPath := by
  cases p <;> rfl

/-- Settling a node leaves the path alone. -/
@[simp] theorem path_settle (c : Context) (node : Node) (args : List Symbol) :
    (c.settle node args).1.path = c.path := by
  unfold settle
  split <;> simp [bind, write, report]

@[simp] theorem onPath_settle (c : Context) (node : Node) (args : List Symbol) :
    (c.settle node args).1.onPath = c.onPath := by
  unfold settle
  split <;> simp [bind, write, report]

/-- Settling a node remembers the symbol that it tells, and no other. -/
@[simp] theorem symbols_settle (c : Context) (node : Node) (args : List Symbol) :
    (c.settle node args).1.symbols = (node.id, (c.settle node args).2) :: c.symbols := by
  unfold settle
  split <;> simp [bind, write, report]

/-- A node that stands for a symbol is settled without a statement. -/
theorem settle_of_standsFor {c : Context} {node : Node} {args : List Symbol} {s : Symbol}
    (h : (node.lowered args).standsFor? = some s) : c.settle node args = (c.bind node.id s, s) := by
  unfold settle
  cases hl : node.lowered args with
  | parameter name => rw [hl] at h; cases h; rfl
  | same t => rw [hl] at h; cases h; rfl
  | assign expr => rw [hl] at h; cases h
  | standIn expr detail => rw [hl] at h; cases h

/-- What settling a node that needs a statement does to the body and its lists. -/
structure Wrote (c c' : Context) (id : NodeId) (expr : Expr Symbol) (unhandled : Option String) :
    Prop where
  counter : c'.counter = c.counter + 1
  statements : c'.statements = c.statements ++ [⟨c.counter, id, expr, unhandled⟩]
  used : c'.used = (c.call expr.primitive?).used
  placeholders : c'.placeholders = c.placeholders ++ (unhandled.map (Placeholder.mk id)).toList

/-- A node that needs a statement is settled by writing it, and the next variable is its symbol. -/
theorem settle_of_statement {c : Context} {node : Node} {args : List Symbol} {expr : Expr Symbol}
    {unhandled : Option String} (h : (node.lowered args).statement? = some (expr, unhandled)) :
    (c.settle node args).2 = .var c.counter ∧
      Wrote c (c.settle node args).1 node.id expr unhandled := by
  unfold settle
  cases hl : node.lowered args with
  | parameter name => rw [hl] at h; cases h
  | same t => rw [hl] at h; cases h
  | assign expr =>
    rw [hl] at h
    cases h
    exact ⟨rfl, by simp [bind, write], by simp [bind, write], by simp [bind, write],
      by simp [bind, write]⟩
  | standIn expr detail =>
    rw [hl] at h
    cases h
    exact ⟨rfl, rfl, rfl, by rw [Node.primitive?_standIn hl]; rfl, rfl⟩

end Context

/-- Each of some nodes has the symbol of its place in a list, in a table of symbols. -/
def Bound (table : List (NodeId × Symbol)) (ids : List NodeId) (args : List Symbol) : Prop :=
  List.Forall₂ (fun id s => table.lookup id = some s) ids args

theorem forall₂_mem_right {α β : Type*} {R : α → β → Prop} {l : List α} {l' : List β}
    (h : List.Forall₂ R l l') {b : β} (hb : b ∈ l') : ∃ a ∈ l, R a b := by
  induction h with
  | nil => cases hb
  | cons head _ ih =>
    rcases List.mem_cons.mp hb with rfl | hb
    · exact ⟨_, List.mem_cons_self, head⟩
    · obtain ⟨a, ha, h⟩ := ih hb
      exact ⟨a, List.mem_cons_of_mem _ ha, h⟩

theorem Bound.of_mem_args {table : List (NodeId × Symbol)} {ids : List NodeId} {args : List Symbol}
    (h : Bound table ids args) {s : Symbol} (hs : s ∈ args) :
    ∃ id ∈ ids, table.lookup id = some s :=
  forall₂_mem_right h hs

theorem Bound.of_mem_ids {table : List (NodeId × Symbol)} {ids : List NodeId} {args : List Symbol}
    (h : Bound table ids args) {id : NodeId} (hid : id ∈ ids) : ∃ s, table.lookup id = some s := by
  obtain ⟨s, -, hs⟩ := forall₂_mem_right (List.Forall₂.flip h) hid
  exact ⟨s, hs⟩

/-- Each of some nodes has the symbol of its place in a list. -/
def Context.Binds (c : Context) (ids : List NodeId) (args : List Symbol) : Prop :=
  Bound c.symbols ids args

/-! ### Dependencies -/

/-- A node takes an input from another. -/
def Graph.DependsOn (g : Graph) (a b : NodeId) : Prop := b ∈ g.inputsOf a

theorem Graph.dependsOn_iff {g : Graph} {id i : NodeId} {node : Node} (h : g.node? id = some node) :
    g.DependsOn id i ↔ i ∈ node.inputs := by
  simp [DependsOn, inputsOf, h]

theorem Graph.id_of_node? {g : Graph} {id : NodeId} {node : Node} (h : g.node? id = some node) :
    node.id = id := by
  simpa using List.find?_some h

theorem Graph.mem_of_node? {g : Graph} {id : NodeId} {node : Node} (h : g.node? id = some node) :
    node ∈ g.nodes :=
  List.mem_of_find?_eq_some h

theorem Graph.mem_ids_of_node? {g : Graph} {id : NodeId} {node : Node}
    (h : g.node? id = some node) : id ∈ g.ids :=
  List.mem_map.mpr ⟨node, mem_of_node? h, id_of_node? h⟩

/-- Some output depends on the node, through any number of inputs. -/
def Graph.Live (g : Graph) (id : NodeId) : Prop :=
  ∃ output ∈ g.outputs, ReflTransGen g.DependsOn output.id id

theorem Graph.live_output {g : Graph} {output : Node} (h : output ∈ g.outputs) :
    g.Live output.id :=
  ⟨output, h, .refl⟩

theorem Graph.Live.input {g : Graph} {id i : NodeId} {node : Node} (h : g.Live id)
    (stored : g.node? id = some node) (hi : i ∈ node.inputs) : g.Live i := by
  obtain ⟨output, hout, reach⟩ := h
  exact ⟨output, hout, reach.tail ((dependsOn_iff stored).mpr hi)⟩

/-- The live nodes are within every set that has the outputs and, with a node, its inputs. -/
theorem Graph.Live.mem_of_closed {g : Graph} {s : List NodeId} (outputs : ∀ o ∈ g.outputs, o.id ∈ s)
    (inputs : ∀ a ∈ s, ∀ b ∈ g.inputsOf a, b ∈ s) {id : NodeId} (h : g.Live id) : id ∈ s := by
  obtain ⟨output, hout, reach⟩ := h
  induction reach with
  | refl => exact outputs output hout
  | tail _ step ih => exact inputs _ ih _ step

/-! ### Steps -/

/-- One step of lowering. -/
inductive Graph.Step (g : Graph) : Context → Context → Prop where
  /-- Start on the inputs of a node that is stored, has no symbol and is not on the path. -/
  | enter {c : Context} {id : NodeId} {node : Node} (unbound : c.symbol? id = none)
      (fresh : id ∉ c.onPath) (room : c.path.length < maxDepth) (stored : g.node? id = some node) :
      Step g c (c.enter id)
  /-- Leave the innermost node of the path and settle it with the symbols of its inputs. -/
  | settle {c : Context} {id : NodeId} {outer : List NodeId} {node : Node} {args : List Symbol}
      (top : c.path = id :: outer) (stored : g.node? id = some node)
      (bound : c.Binds node.inputs args) : Step g c ((c.leave id).settle node args).1

/-- Lowering goes from a context to another, in any number of steps. -/
def Graph.Steps (g : Graph) : Context → Context → Prop := ReflTransGen g.Step

namespace Context

/-- The path and the set of its nodes go together: it has no repeats, it fits, and none of its nodes
has a symbol. -/
structure Tracked (c : Context) : Prop where
  nodup : c.path.Nodup
  short : c.path.length ≤ maxDepth
  onPath : ∀ id, id ∈ c.onPath ↔ id ∈ c.path
  apart : ∀ id ∈ c.path, c.symbol? id = none

theorem tracked_empty : Tracked .empty :=
  ⟨List.nodup_nil, Nat.zero_le _, fun _ => Iff.rfl, fun _ h => nomatch h⟩

/-- Looking up a node after another was settled. -/
theorem symbol?_settle (c : Context) (node : Node) (args : List Symbol) (id : NodeId) :
    (c.settle node args).1.symbol? id =
      if id = node.id then some (c.settle node args).2 else c.symbol? id := by
  simp only [symbol?, symbols_settle, List.lookup_cons]
  by_cases h : id = node.id
  · simp [h]
  · rw [if_neg h, beq_false_of_ne h]

/-- A node that has a symbol keeps it when one that has none is settled. -/
theorem symbol?_settle_of_some {c : Context} {node : Node} (unbound : c.symbol? node.id = none)
    (args : List Symbol) {id : NodeId} {s : Symbol} (h : c.symbol? id = some s) :
    (c.settle node args).1.symbol? id = some s := by
  have hne : id ≠ node.id := by
    rintro rfl
    rw [unbound] at h
    cases h
  rw [symbol?_settle, if_neg hne, h]

@[simp] theorem symbol?_leave (c : Context) (id i : NodeId) :
    (c.leave id).symbol? i = c.symbol? i := rfl

theorem Tracked.enter {c : Context} (h : c.Tracked) {id : NodeId} (unbound : c.symbol? id = none)
    (fresh : id ∉ c.onPath) (room : c.path.length < maxDepth) : (c.enter id).Tracked where
  nodup := List.nodup_cons.mpr ⟨fun hp => fresh ((h.onPath id).mpr hp), h.nodup⟩
  short := room
  onPath i := by simp [Context.enter, h.onPath i]
  apart i hi := by
    rcases List.mem_cons.mp hi with rfl | hi
    · exact unbound
    · exact h.apart i hi

theorem Tracked.settle {c : Context} (h : c.Tracked) {id : NodeId} {outer : List NodeId}
    {node : Node} (top : c.path = id :: outer) (same : node.id = id) (args : List Symbol) :
    ((c.leave id).settle node args).1.Tracked := by
  have hn : id ∉ outer ∧ outer.Nodup := List.nodup_cons.mp (top ▸ h.nodup)
  have hp : ((c.leave id).settle node args).1.path = outer := by simp [leave, top]
  refine ⟨hp ▸ hn.2, ?_, fun i => ?_, fun i hi => ?_⟩
  · have := h.short
    rw [top, List.length_cons] at this
    rw [hp]
    omega
  · rw [hp, onPath_settle]
    simp only [leave, List.mem_filter, bne_iff_ne, h.onPath i, top, List.mem_cons]
    constructor
    · rintro ⟨rfl | hi, hne⟩
      · exact absurd rfl hne
      · exact hi
    · intro hi
      exact ⟨.inr hi, fun e => hn.1 (e ▸ hi)⟩
  · rw [hp] at hi
    have hne : i ≠ node.id := fun e => hn.1 (same ▸ e ▸ hi)
    rw [symbol?_settle, if_neg hne, symbol?_leave]
    exact h.apart i (top ▸ List.mem_cons_of_mem _ hi)

theorem Tracked.step {g : Graph} {c c' : Context} (h : c.Tracked) (s : g.Step c c') :
    c'.Tracked := by
  cases s with
  | enter unbound fresh room _ => exact h.enter unbound fresh room
  | settle top stored _ => exact h.settle top (Graph.id_of_node? stored) _

theorem Tracked.steps {g : Graph} {c c' : Context} (h : c.Tracked) (s : g.Steps c c') :
    c'.Tracked := by
  induction s with
  | refl => exact h
  | tail _ s ih => exact ih.step s

/-- The innermost node of the path has no symbol. -/
theorem Tracked.unbound {c : Context} (h : c.Tracked) {id : NodeId} {outer : List NodeId}
    (top : c.path = id :: outer) : c.symbol? id = none :=
  h.apart id (top ▸ List.mem_cons_self)

end Context

/-- **Invariants of lowering**: what does not depend on the path, and is preserved by settling a
node that has no symbol yet, holds at the end of every run. -/
theorem Graph.Steps.invariant {g : Graph} {P : Context → Prop} {c c' : Context} (s : g.Steps c c')
    (tracked : c.Tracked) (start : P c)
    (walk : ∀ c path onPath, P c → P { c with path := path, onPath := onPath })
    (settle : ∀ c node args, c.symbol? node.id = none → g.node? node.id = some node →
      c.Binds node.inputs args → P c → P (c.settle node args).1) : P c' := by
  induction s with
  | refl => exact start
  | tail s step ih =>
    cases step with
    | enter _ _ _ _ => exact walk _ _ _ ih
    | settle top stored bound =>
      have unbound := (tracked.steps s).unbound top
      obtain rfl := id_of_node? stored
      exact settle _ _ _ unbound stored bound (walk _ _ _ ih)

/-- A symbol that is remembered stays as it is. -/
theorem Graph.Steps.symbol? {g : Graph} {c c' : Context} (s : g.Steps c c') (tracked : c.Tracked)
    {id : NodeId} {t : Symbol} (h : c.symbol? id = some t) : c'.symbol? id = some t := by
  refine s.invariant (P := fun c => c.symbol? id = some t) tracked h (fun _ _ _ h => h) ?_
  intro c node args unbound _ _ h
  exact Context.symbol?_settle_of_some unbound args h

theorem Graph.Steps.binds {g : Graph} {c c' : Context} (s : g.Steps c c') (tracked : c.Tracked)
    {ids : List NodeId} {args : List Symbol} (h : c.Binds ids args) : c'.Binds ids args :=
  List.Forall₂.imp (fun _ _ h => s.symbol? tracked h) h

/-! ### Requests -/

/-- Why a request stops at a node. -/
inductive Graph.Cause (g : Graph) (c : Context) (stop : NodeId) : Fault → Prop where
  /-- The node is on the path already. -/
  | cycle (again : stop ∈ c.path) : Cause g c stop (.cycle stop (c.pathFrom stop))
  /-- The node is new and the path is full. -/
  | tooDeep (unbound : c.symbol? stop = none) (fresh : stop ∉ c.path)
      (full : c.path.length = maxDepth) : Cause g c stop (.tooDeep stop)
  /-- The node is not stored. -/
  | unknownNode (missing : g.node? stop = none) : Cause g c stop (.unknownNode stop)

/-- A request for one of some nodes followed a trail of dependencies to a node where it stopped; the
trail is what was added to the path. -/
structure Graph.Stopped (g : Graph) (starts : List NodeId) (c c' : Context) (trail : List NodeId)
    (stop : NodeId) (fault : Fault) : Prop where
  path : c'.path = trail.reverse ++ c.path
  chain : (trail ++ [stop]).IsChain g.DependsOn
  start : ∃ id ∈ starts, (trail ++ [stop]).head? = some id
  cause : g.Cause c' stop fault

/-- What requests for some nodes, one after the other, do to a context, and how they end. -/
structure Graph.Request (g : Graph) (ids : List NodeId) (c c' : Context)
    (answer : Except Fault (List Symbol)) : Prop where
  steps : g.Steps c c'
  path : ∀ args, answer = .ok args → c'.path = c.path ∧ c'.onPath = c.onPath
  binds : ∀ args, answer = .ok args → c'.Binds ids args
  stopped : ∀ fault, answer = .error fault → ∃ trail stop, g.Stopped ids c c' trail stop fault

theorem Context.known?_some_ok {c : Context} {id : NodeId} {s : Symbol}
    (h : c.known? id = some (.ok s)) : c.symbol? id = some s := by
  unfold known? at h
  split at h
  · cases h; assumption
  · split at h <;> cases h

theorem Context.known?_some_error {c : Context} {id : NodeId} {fault : Fault}
    (h : c.known? id = some (.error fault)) :
    id ∈ c.onPath ∧ fault = .cycle id (c.pathFrom id) := by
  unfold known? at h
  split at h
  · cases h
  · split at h
    · cases h; exact ⟨by simpa using ‹c.onPath.contains id = true›, rfl⟩
    · cases h

theorem Context.known?_none {c : Context} {id : NodeId} (h : c.known? id = none) :
    c.symbol? id = none ∧ id ∉ c.onPath := by
  unfold known? at h
  split at h
  · cases h
  · split at h
    · cases h
    · exact ⟨by assumption, by simpa using ‹¬c.onPath.contains id = true›⟩

/-- A request that is answered, or refused, without looking into its node. -/
theorem Graph.request_known {g : Graph} {c : Context} {id : NodeId} {answer : Except Fault Symbol}
    (tracked : c.Tracked) (h : c.known? id = some answer) :
    g.Request [id] c c (answer.map ([·])) := by
  refine ⟨.refl, fun _ _ => ⟨rfl, rfl⟩, fun args ha => ?_, fun fault hf => ?_⟩
  · cases answer with
    | error _ => cases ha
    | ok s => cases ha; exact .cons (Context.known?_some_ok h) .nil
  · cases answer with
    | ok s => cases hf
    | error _ =>
      cases hf
      obtain ⟨on, rfl⟩ := Context.known?_some_error h
      exact ⟨[], id, rfl, .singleton _, ⟨id, by simp, rfl⟩, .cycle ((tracked.onPath id).mp on)⟩

/-- A request that is refused at its own node. -/
theorem Graph.request_refused {g : Graph} {c : Context} {id : NodeId} {fault : Fault}
    (h : g.Cause c id fault) : g.Request [id] c c (.error fault) := by
  refine ⟨.refl, fun _ ha => (nomatch ha), fun _ ha => (nomatch ha), fun _ hf => ?_⟩
  cases hf
  exact ⟨[], id, rfl, .singleton _, ⟨id, by simp, rfl⟩, h⟩

theorem Graph.Stopped.mono {g : Graph} {starts starts' : List NodeId} {c c₁ c' : Context}
    {trail : List NodeId} {stop : NodeId} {fault : Fault}
    (h : g.Stopped starts c₁ c' trail stop fault) (sub : starts ⊆ starts')
    (same : c₁.path = c.path) : g.Stopped starts' c c' trail stop fault := by
  obtain ⟨id, hid, hh⟩ := h.start
  exact ⟨same ▸ h.path, h.chain, ⟨id, sub hid, hh⟩, h.cause⟩

/-- A stop below the inputs of a node is a stop below the node. -/
theorem Graph.Stopped.cons {g : Graph} {id : NodeId} {node : Node} {c c' : Context}
    {trail : List NodeId} {stop : NodeId} {fault : Fault} (stored : g.node? id = some node)
    (h : g.Stopped node.inputs (c.enter id) c' trail stop fault) :
    g.Stopped [id] c c' (id :: trail) stop fault := by
  obtain ⟨i, hi, hh⟩ := h.start
  refine ⟨by rw [h.path]; simp [Context.enter], ?_, ⟨id, by simp, rfl⟩, h.cause⟩
  have feeds : g.DependsOn id i := (dependsOn_iff stored).mpr hi
  refine List.isChain_cons.mpr ⟨fun j hj => ?_, h.chain⟩
  rw [List.append_eq, hh, Option.mem_some_iff] at hj
  exact hj ▸ feeds

section

variable {g : Graph} {lower : NodeId → Context → Context × Except Fault Symbol}

/-- Requests one after the other, when each of them is a request. -/
theorem Graph.lowerEach_request (room : Nat)
    (each : ∀ id c, c.Tracked → room + c.path.length = maxDepth →
      g.Request [id] c (lower id c).1 ((lower id c).2.map ([·]))) (ids : List NodeId) :
    ∀ c : Context, c.Tracked → room + c.path.length = maxDepth →
      g.Request ids c (lowerEach lower ids c).1 (lowerEach lower ids c).2 := by
  induction ids with
  | nil =>
    intro c _ _
    refine ⟨.refl, fun _ _ => ⟨rfl, rfl⟩, fun args ha => ?_, fun _ hf => (nomatch hf)⟩
    cases ha
    exact .nil
  | cons id rest ih =>
    intro c tracked hroom
    have first := each id c tracked hroom
    unfold lowerEach
    generalize lower id c = r at first ⊢
    obtain ⟨c₁, fault | s⟩ := r
    · refine ⟨first.steps, fun _ ha => (nomatch ha), fun _ ha => (nomatch ha), fun _ hf => ?_⟩
      cases hf
      obtain ⟨trail, stop, h⟩ := first.stopped fault rfl
      exact ⟨trail, stop, h.mono (by simp) rfl⟩
    · have tracked₁ := tracked.steps first.steps
      have path₁ := first.path [s] rfl
      have others := ih c₁ tracked₁ (by rw [path₁.1]; exact hroom)
      simp only
      generalize lowerEach lower rest c₁ = r at others ⊢
      obtain ⟨c₂, fault | ss⟩ := r
      · refine ⟨first.steps.trans others.steps, fun _ ha => (nomatch ha), fun _ ha => (nomatch ha),
          fun _ hf => ?_⟩
        cases hf
        obtain ⟨trail, stop, h⟩ := others.stopped fault rfl
        exact ⟨trail, stop, h.mono (by simp) path₁.1⟩
      · have path₂ := others.path ss rfl
        refine ⟨first.steps.trans others.steps,
          fun _ _ => ⟨path₂.1.trans path₁.1, path₂.2.trans path₁.2⟩, fun _ ha => ?_,
          fun _ hf => (nomatch hf)⟩
        cases ha
        have bound := others.steps.binds tracked₁ (first.binds [s] rfl)
        cases bound with
        | cons head _ => exact .cons head (others.binds ss rfl)

end

/-- **A request is a run of steps**, and `Graph.Request` says how it ends. -/
theorem Graph.lowerWithin_request (g : Graph) (room : Nat) :
    ∀ (id : NodeId) (c : Context), c.Tracked → room + c.path.length = maxDepth →
      g.Request [id] c (g.lowerWithin room id c).1 ((g.lowerWithin room id c).2.map ([·])) := by
  induction room with
  | zero =>
    intro id c tracked hroom
    unfold lowerWithin
    cases hk : c.known? id with
    | some answer => exact request_known tracked hk
    | none =>
      obtain ⟨unbound, fresh⟩ := Context.known?_none hk
      exact request_refused (.tooDeep unbound (mt (tracked.onPath id).mpr fresh) (by omega))
  | succ room ih =>
    intro id c tracked hroom
    unfold lowerWithin
    cases hk : c.known? id with
    | some answer => exact request_known tracked hk
    | none =>
      obtain ⟨unbound, fresh⟩ := Context.known?_none hk
      cases stored : g.node? id with
      | none => exact request_refused (.unknownNode stored)
      | some node =>
        have entered := tracked.enter unbound fresh (by omega)
        have enter : g.Step c (c.enter id) := .enter unbound fresh (by omega) stored
        have inputs := lowerEach_request room ih node.inputs (c.enter id) entered
          (by simp only [Context.enter, List.length_cons]; omega)
        simp only
        generalize lowerEach (g.lowerWithin room) node.inputs (c.enter id) = r at inputs ⊢
        obtain ⟨c₁, fault | args⟩ := r <;> simp only at inputs ⊢
        · refine ⟨.head enter inputs.steps, fun _ ha => (nomatch ha), fun _ ha => (nomatch ha),
            fun _ hf => ?_⟩
          cases hf
          obtain ⟨trail, stop, h⟩ := inputs.stopped fault rfl
          exact ⟨id :: trail, stop, h.cons stored⟩
        · have path₁ := inputs.path args rfl
          have leave : g.Step c₁ ((c₁.leave id).settle node args).1 :=
            .settle path₁.1 stored (inputs.binds args rfl)
          refine ⟨.head enter (inputs.steps.tail leave), fun _ _ => ⟨?_, ?_⟩, fun _ ha => ?_,
            fun _ hf => (nomatch hf)⟩
          · simp [Context.leave, path₁.1, Context.enter]
          · have keep : c.onPath.filter (· != id) = c.onPath :=
              List.filter_eq_self.mpr fun i hi => bne_iff_ne.mpr fun e => fresh (e ▸ hi)
            simp [Context.leave, path₁.2, Context.enter, keep]
          · cases ha
            have bound := Context.symbol?_settle (c₁.leave id) node args id
            rw [if_pos (id_of_node? stored).symm] at bound
            exact .cons bound .nil

/-- The context after one request more. -/
theorem Graph.lower_request {g : Graph} {c : Context} (tracked : c.Tracked) (id : NodeId) :
    g.Request [id] c (g.lower id c).1 ((g.lower id c).2.map ([·])) :=
  g.lowerWithin_request _ id c tracked (Nat.sub_add_cancel tracked.short)

/-! ### Compiling -/

theorem Graph.lowerWithin_congr {g h : Graph} (same : ∀ id, g.node? id = h.node? id) (room : Nat) :
    g.lowerWithin room = h.lowerWithin room := by
  induction room with
  | zero => rfl
  | succ room ih =>
    funext id c
    simp only [lowerWithin, ih, same]

/-- Lowering sees a graph through the nodes that it finds. -/
theorem Graph.lower_congr {g h : Graph} (same : ∀ id, g.node? id = h.node? id) :
    g.lower = h.lower := by
  funext id c
  rw [lower, lower, lowerWithin_congr same]

/-- Lowering the outputs is a request for each of them on a new context. -/
theorem Graph.lowerOutputs_request (g : Graph) :
    g.Request (g.outputs.map (·.id)) .empty g.lowerOutputs.1 g.lowerOutputs.2 :=
  lowerEach_request maxDepth (fun id _ tracked _ => lower_request tracked id) _ .empty
    Context.tracked_empty rfl

/-- A graph that passes the check fails to compile with the fault of lowering its outputs. -/
theorem Graph.compile_eq_error_iff {g : Graph} (h : g.check = .ok ()) {fault : Fault} :
    g.compile = .error fault ↔ g.lowerOutputs.2 = .error fault := by
  unfold compile
  rw [h]
  generalize g.lowerOutputs = r
  obtain ⟨c, fault | outputs⟩ := r <;> simp

/-- A graph that compiles is valid, its outputs are lowered, and the result is what the context
holds. -/
theorem Graph.compile_eq_ok {g : Graph} {p : Compiled} (h : g.compile = .ok p) :
    g.check = .ok () ∧ g.lowerOutputs.2 = .ok p.outputs ∧ p.body = g.lowerOutputs.1.statements ∧
      p.used = g.lowerOutputs.1.used ∧ p.placeholders = g.lowerOutputs.1.placeholders := by
  unfold compile at h
  cases hc : g.check with
  | error fault => rw [hc] at h; cases h
  | ok u =>
    rw [hc] at h
    generalize g.lowerOutputs = r at h ⊢
    obtain ⟨c, fault | outputs⟩ := r
    · cases h
    · cases h
      exact ⟨rfl, rfl, rfl, rfl, rfl⟩

end NodeGraph
