import NodeGraph.Proofs.Meaning

/-!
# Names of parameters and variables

A variable is called by its number, and a parameter node by whatever its author chose. Nothing keeps
the two apart: a parameter called `v0` is hidden by the first statement, and from there on its name
stands for the variable (`capture_capturedGraph`).

`hygienic_iff` says exactly when this does not happen. Statement `k` defines `v{k}`, so the names
that a body defines are those of its first variables; a body is hygienic when no live parameter node
is called like one of them, and then every name of such a node stands for the parameter, wherever in
the body or on the return line it is read.
-/

namespace NodeGraph

/-- A live parameter node is called by the name. -/
def Graph.LiveName (g : Graph) (name : String) : Prop :=
  ∃ node ∈ g.nodes, g.Live node.id ∧ node.kind = .input name

/-- No statement defines the name of a live parameter node. -/
def Compiled.Hygienic (g : Graph) (p : Compiled) : Prop :=
  ∀ name, g.LiveName name → ∀ s ∈ p.body, variableName s.index ≠ name

/-- The statements of a compiled graph define the variables numbered by their positions. -/
theorem Graph.index_of_mem_body {g : Graph} {p : Compiled} (compiled : g.compile = .ok p)
    (k : Nat) :
    (∃ s ∈ p.body, s.index = k) ↔ k < p.body.length := by
  obtain ⟨-, -, hbody, -, -⟩ := compile_eq_ok compiled
  have sound := g.sound_lowerOutputs
  have index {j : Nat} {s : Statement} (h : p.body[j]? = some s) : s.index = j :=
    (sound.written j s (hbody ▸ h)).1
  constructor
  · rintro ⟨s, hs, rfl⟩
    obtain ⟨j, hj⟩ := List.mem_iff_getElem?.mp hs
    rw [index hj]
    exact (List.getElem?_eq_some_iff.mp hj).1
  · intro hk
    have found := List.getElem?_eq_getElem hk
    exact ⟨_, List.getElem_mem hk, index found⟩

/-- **When parameters keep their names.** Let a graph compile. No statement defines the name of a
live parameter node exactly when none of these names is `v{k}` with `k` below the number of
statements. And then, for every reading of the operators and all values of the names, each of these
names has the value of its parameter after any number of statements, so wherever it is mentioned in
the body, and at the end, where the return line mentions it. -/
theorem hygienic_iff {V : Type*} (m : Meaning V) {g : Graph} {p : Compiled}
    (compiled : g.compile = .ok p) (env : String → V) :
    (p.Hygienic g ↔ ∀ name, g.LiveName name → ∀ k < p.body.length, name ≠ variableName k) ∧
    (p.Hygienic g →
      ∀ name, g.LiveName name → ∀ n, execute m env (p.body.take n) name = env name) := by
  have defined := Graph.index_of_mem_body compiled
  refine ⟨⟨fun h name live k hk => ?_, fun h name live s hs => ?_⟩, fun h name live n => ?_⟩
  · obtain ⟨s, hs, rfl⟩ := (defined k).mpr hk
    exact (h name live s hs).symm
  · have hk := (defined s.index).mp ⟨s, hs, rfl⟩
    exact (h name live s.index hk).symm
  · refine execute_of_not_defined m env _ fun s hs => ?_
    exact (h name live s (List.mem_of_mem_take hs)).symm

/-- The only live parameter of `sharedGraph` is called `time`, which is no variable. -/
theorem hygienic_iff_sharedGraph :
    ∃ p, sharedGraph.compile = .ok p ∧ p.Hygienic sharedGraph ∧ sharedGraph.LiveName "time" ∧
      ∀ n, execute Meaning.integers (fun _ => 100) (p.body.take n) "time" = 100 := by
  obtain ⟨p, hp⟩ : ∃ p, sharedGraph.compile = .ok p := ⟨_, rfl⟩
  obtain ⟨iff, keeps⟩ := hygienic_iff Meaning.integers hp fun _ => 100
  have edge (a b : NodeId) (h : b ∈ sharedGraph.inputsOf a) : sharedGraph.DependsOn a b := h
  have live : sharedGraph.Live ⟨9⟩ :=
    ⟨⟨⟨2⟩, .control, .valueOutput, [⟨7⟩]⟩, by decide +kernel,
      .head (edge _ ⟨7⟩ (by decide +kernel)) (.single (edge _ _ (by decide +kernel)))⟩
  have time : sharedGraph.LiveName "time" :=
    ⟨⟨⟨9⟩, .control, .input "time", []⟩, by decide +kernel, live, rfl⟩
  have hygienic : p.Hygienic sharedGraph := by
    refine iff.mpr ?_
    rintro name ⟨node, hn, -, hk⟩ k -
    obtain rfl : name = "time" := by
      simp only [sharedGraph, List.mem_cons, List.not_mem_nil, or_false] at hn
      rcases hn with rfl | rfl | rfl | rfl | rfl | rfl | rfl | rfl <;> cases hk
      rfl
    exact variableName_ne_of_head (by decide) k
  exact ⟨p, hp, hygienic, time, keeps hygienic "time" time⟩

/-- One and a parameter that is called `v0`. -/
def capturedGraph : Graph :=
  let node (id : UInt32) (kind : Kind) (inputs : List UInt32) : Node :=
    ⟨⟨id⟩, .control, kind, inputs.map NodeId.mk⟩
  ⟨[node 0 (.input "v0") [], node 1 (.constant (.ofNat 1)) [], node 2 (.math "add" []) [1, 0],
    node 3 .valueOutput [2]], ⟨4⟩⟩

/-- In `capturedGraph` the first statement hides the parameter: with the parameter as `100` the
output is `101`, and the body computes `2`. -/
theorem capture_capturedGraph :
    ∃ p, capturedGraph.compile = .ok p ∧ capturedGraph.LiveName "v0" ∧ ¬p.Hygienic capturedGraph ∧
      p.outputs.map (fun s => execute Meaning.integers (fun _ => 100) p.body s.text) = [2] ∧
      capturedGraph.valueWithin .integers (fun _ => 100) 4 ⟨3⟩ = some 101 := by
  obtain ⟨p, hp⟩ : ∃ p, capturedGraph.compile = .ok p := ⟨_, rfl⟩
  have edge (a b : NodeId) (h : b ∈ capturedGraph.inputsOf a) : capturedGraph.DependsOn a b := h
  have live : capturedGraph.Live ⟨0⟩ :=
    ⟨⟨⟨3⟩, .control, .valueOutput, [⟨2⟩]⟩, by decide +kernel,
      .head (edge _ ⟨2⟩ (by decide +kernel)) (.single (edge _ _ (by decide +kernel)))⟩
  have name : capturedGraph.LiveName "v0" :=
    ⟨⟨⟨0⟩, .control, .input "v0", []⟩, by decide +kernel, live, rfl⟩
  have defined : capturedGraph.compile.toOption.map (·.body.map (·.index)) = some [0, 1] := by
    decide +kernel
  have executed : capturedGraph.compile.toOption.map (fun p =>
      p.outputs.map fun s => execute Meaning.integers (fun _ => 100) p.body s.text) = some [2] := by
    decide +kernel
  simp only [hp, Except.toOption, Option.map_some, Option.some.injEq] at defined executed
  refine ⟨p, hp, name, fun hygienic => ?_, executed, by decide +kernel⟩
  have first : 0 ∈ p.body.map (·.index) := defined ▸ List.mem_cons_self
  obtain ⟨s, hs, index⟩ := List.mem_map.mp first
  exact hygienic "v0" name s hs (by rw [index]; rfl)

end NodeGraph
