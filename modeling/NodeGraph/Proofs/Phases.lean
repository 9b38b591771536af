import Mathlib.Data.Int.ModEq
import NodeGraph.Proofs.Order
import NodeGraph.Proofs.WholeNumbers

/-!
# Phases and whole turns

The angle of a wave is its input plus the phase, as a remainder of a full turn of `3600` units. The
phase is first rounded to units (`phaseUnits`), a signed integer of 64 bits, and only what it is
beyond whole turns is written; when this is nothing, no shift is written at all.

To say what a text means, wave statements are read as integer code over one operand
(`IntegerCode`), which has a text and a value. `lower_wave_turns` says that the statement of a wave
node is the text of such code, in every context that requests lead to; that the angle in it has a
shift exactly when the phase is not a number of whole turns; and that it evaluates to the sum of the
input and the whole phase, as if no turn had been dropped. The code is one for all phases that
differ by whole turns, so their statements are the same text.
-/

namespace NodeGraph

/-! ### Integer code -/

/-- Code that computes an integer from one operand. -/
inductive IntegerCode where
  /-- The operand. -/
  | operand
  /-- A number. -/
  | number (n : ℤ)
  /-- The sum of two values. -/
  | sum (a b : IntegerCode)
  /-- The remainder of a value by another one. -/
  | remainder (a b : IntegerCode)
  /-- A call of a primitive with one argument. -/
  | call (p : Primitive) (a : IntegerCode)
  /-- `c` when `a` is below `b`, and else `d`. -/
  | choice (a b c d : IntegerCode)

namespace IntegerCode

/-- The text of some code, from the text of its operand. -/
def text (name : String) : IntegerCode → String
  | .operand => name
  | .number n => toString n
  | .sum a b => "(" ++ a.text name ++ " + " ++ b.text name ++ ")"
  | .remainder a b => a.text name ++ " mod " ++ b.text name
  | .call p a => p.call [a.text name]
  | .choice a b c d =>
    let condition := "(" ++ a.text name ++ ") < " ++ b.text name
    let branches := c.text name ++ " else: " ++ d.text name
    "(if " ++ condition ++ ": " ++ branches ++ ")"

/-- The value of some code, from a reading of the primitives and the value of its operand. A
remainder by a positive number is never negative. -/
def value (primitive : Primitive → ℤ → ℤ) (t : ℤ) : IntegerCode → ℤ
  | .operand => t
  | .number n => n
  | .sum a b => a.value primitive t + b.value primitive t
  | .remainder a b => a.value primitive t % b.value primitive t
  | .call p a => primitive p (a.value primitive t)
  | .choice a b c d =>
    if a.value primitive t < b.value primitive t then c.value primitive t else d.value primitive t

/-- The operand as an angle of one turn. -/
def plainAngle : IntegerCode := .remainder .operand (.number 3600)

/-- The operand and a shift as an angle of one turn. -/
def shiftedAngle (s : ℤ) : IntegerCode := .remainder (.sum .operand (.number s)) (.number 3600)

/-- A waveform at an angle. -/
def wave (angle : IntegerCode) : Waveform → IntegerCode
  | .sin => .call .isin angle
  | .cos => .call .icos angle
  | .saw => angle
  | .square => .choice angle (.number 1800) (.number 1000) (.number (-1000))

/-- An angle that is turned by `r` units: whole turns are left out, what remains is written as a
shift, and the value is that of all `r` units. -/
structure Turned (r : ℤ) (angle : IntegerCode) : Prop where
  plain : 3600 ∣ r → angle = plainAngle
  shifted : ¬ 3600 ∣ r → ∃ s, 1 ≤ s ∧ s ≤ 3599 ∧ s ≡ r [ZMOD 3600] ∧ angle = shiftedAngle s
  value : ∀ primitive t, angle.value primitive t = (t + r) % 3600

end IntegerCode

/-- The value of a waveform at an angle, from a reading of the primitives: the square wave is high
on the first half turn and low on the second. -/
def Waveform.value (primitive : Primitive → ℤ → ℤ) (angle : ℤ) : Waveform → ℤ
  | .sin => primitive .isin angle
  | .cos => primitive .icos angle
  | .saw => angle
  | .square => if angle < 1800 then 1000 else -1000

theorem IntegerCode.value_wave (primitive : Primitive → ℤ → ℤ) (t : ℤ) (angle : IntegerCode)
    (form : Waveform) :
    (angle.wave form).value primitive t = form.value primitive (angle.value primitive t) := by
  cases form <;> rfl

/-! ### Texts -/

/-- The code of an angle with a shift, which is left out when it is zero. -/
def IntegerCode.angle (shift : ℕ) : IntegerCode :=
  if shift = 0 then plainAngle else shiftedAngle shift

theorem toString_natCast (n : ℕ) : toString (n : ℤ) = toString n := rfl

theorem Angle.text_eq (angle : Angle Symbol) :
    angle.text = (IntegerCode.angle angle.shift).text angle.operand.text := by
  have turn : toString (3600 : ℤ) = toString fullTurn := toString_natCast fullTurn
  unfold Angle.text IntegerCode.angle
  split
  · simp only [IntegerCode.plainAngle, IntegerCode.text, turn, String.append_assoc]
  · simp only [IntegerCode.shiftedAngle, IntegerCode.text, turn, toString_natCast,
      String.append_assoc]

theorem Waveform.text_eq (form : Waveform) (angle : IntegerCode) (name : String) :
    form.text (angle.text name) = (angle.wave form).text name := by
  cases form with
  | sin | cos | saw => rfl
  | square =>
    have half : toString (1800 : ℤ) = toString halfTurn := toString_natCast halfTurn
    have high : toString (1000 : ℤ) = toString unitAmplitude := toString_natCast unitAmplitude
    have opening (rest : String) : "(if " ++ ("(" ++ rest) = "(if (" ++ rest := by
      rw [← String.append_assoc]
      rfl
    have low : " else: " ++ (toString (-1000 : ℤ) ++ ")") =
        " else: -" ++ (toString unitAmplitude ++ ")") := by decide
    unfold Waveform.text
    simp only [IntegerCode.wave, IntegerCode.text, half, high, String.append_assoc]
    rw [opening, low]

/-! ### Shifts -/

/-- The units that a phase in turns stands for, before whole turns are dropped. -/
def phaseUnits (phase : Binary64) : ℤ := (phase.mul (.ofNat 3600)).int64 halfAway

theorem phaseShift_eq (phase : Binary64) : (phaseShift phase : ℤ) = phaseUnits phase % 3600 := by
  rw [phaseUnits, ← Binary64.round_eq, phaseShift]
  exact Int.toNat_of_nonneg (Int.emod_nonneg _ (by decide))

/-- A phase is written as a shift that turns the angle by all its units. -/
theorem turned_angle (phase : Binary64) :
    (IntegerCode.angle (phaseShift phase)).Turned (phaseUnits phase) := by
  have shift := phaseShift_eq phase
  generalize phaseUnits phase = r at shift
  generalize phaseShift phase = s at shift
  unfold IntegerCode.angle
  by_cases zero : s = 0
  · rw [if_pos zero]
    refine ⟨fun _ => rfl, fun more => absurd ?_ more, fun primitive t => ?_⟩
    · omega
    · simp only [IntegerCode.plainAngle, IntegerCode.value]
      omega
  · rw [if_neg zero]
    refine ⟨fun whole => absurd ?_ zero, fun _ => ⟨s, ?_, ?_, ?_, rfl⟩, fun primitive t => ?_⟩
    · omega
    · omega
    · omega
    · rw [shift]
      exact Int.mod_modEq r 3600
    · simp only [IntegerCode.shiftedAngle, IntegerCode.value]
      omega

/-- Phases that differ by whole turns are written as the same shift. -/
theorem phaseShift_congr {phase phase' : Binary64}
    (h : phaseUnits phase' ≡ phaseUnits phase [ZMOD 3600]) :
    phaseShift phase' = phaseShift phase := by
  rw [← Nat.cast_inj (R := ℤ), phaseShift_eq, phaseShift_eq]
  exact h

/-! ### Statements -/

theorem Waveform.ofName?_name (form : Waveform) : Waveform.ofName? form.name = some form := by
  cases form <;> rfl

theorem Node.lowered_wave {node : Node} {form : Waveform} {phase : Binary64}
    (wave : node.kind = .wave form.name phase) (a : Symbol) (rest : List Symbol) :
    node.lowered (a :: rest) = .assign (.wave form ⟨a, phaseShift phase⟩) := by
  simp only [Node.lowered, wave, loweredWave, form.ofName?_name]

/-- A node that needs a statement and has a symbol has a statement: the symbol is its variable, and
it follows from the symbols of the inputs. -/
theorem Context.Numbered.exists_follows {g : Graph} {c : Context} (h : c.Numbered g) {node : Node}
    (stored : g.node? node.id = some node) (emits : node.emits = true) {s : Symbol}
    (bound : c.symbol? node.id = some s) :
    ∃ (t : Statement) (args : List Symbol), s = .var t.index ∧ c.statements[t.index]? = some t ∧
      t.Follows g c.symbols node args := by
  have found : node.id ∈ c.statements.map (·.node) := by
    rw [h.nodes, List.mem_filter, Graph.emits, stored]
    exact ⟨(c.mem_order_iff _).mpr ⟨s, bound⟩, emits⟩
  obtain ⟨t, ht, same⟩ := List.mem_map.mp found
  obtain ⟨k, hk⟩ := List.mem_iff_getElem?.mp ht
  obtain ⟨rfl, table, -, -, entry, -⟩ := h.sound.written k t hk
  obtain ⟨other, args, follows⟩ := h.sound.follows hk
  obtain rfl : node = other := by
    rw [← Option.some.injEq, ← stored, ← same, follows.stored]
  refine ⟨t, args, ?_, hk, follows⟩
  -- The table has one entry for the node, and the statement was written with it.
  obtain ⟨front, back, split, -⟩ := List.lookup_eq_some_iff.mp bound
  have mem : (node.id, s) ∈ c.symbols := split ▸ List.mem_append_right _ List.mem_cons_self
  have mem' : (t.node, Symbol.var t.index) ∈ c.symbols := entry.subset List.mem_cons_self
  exact congrArg Prod.snd (List.inj_on_of_nodup_map h.sound.keyed mem mem' same.symm)

/-- The text of the statement of a wave. -/
theorem Statement.text_wave {t : Statement} {form : Waveform} {angle : Angle Symbol}
    (rule : (Lowered.assign (.wave form angle)).statement? = some (t.expr, t.unhandled)) :
    t.text = "let " ++ variableName t.index ++ " = " ++
      ((IntegerCode.angle angle.shift).wave form).text angle.operand.text := by
  obtain ⟨expr, unhandled⟩ := Prod.mk.inj (Option.some.inj rule)
  rw [Statement.text, ← expr, ← unhandled, Expr.text, angle.text_eq, form.text_eq,
    String.append_empty]

/-- **Phases count up to whole turns.** For a waveform and a phase there is an angle, turned by the
units of the phase, such that the waveform at this angle has the value that belongs to the input
plus all the units; and such that, in every context that requests lead to, a wave node of this form
that takes an input and was lowered has a statement with the text of the waveform at this angle of
the input's symbol. The angle is the same for all phases that differ by whole turns. -/
theorem lower_wave_turns (form : Waveform) (phase : Binary64) :
    ∃ angle : IntegerCode, angle.Turned (phaseUnits phase) ∧
      (∀ primitive t, (angle.wave form).value primitive t =
        form.value primitive ((t + phaseUnits phase) % 3600)) ∧
      ∀ phase' : Binary64, phaseUnits phase' ≡ phaseUnits phase [ZMOD 3600] →
        ∀ (g : Graph) (requests : List NodeId) (node : Node) (i : NodeId) (rest : List NodeId)
          (s : Symbol), g.node? node.id = some node → node.kind = .wave form.name phase' →
          node.inputs = i :: rest → (g.afterRequests requests).symbol? node.id = some s →
          ∃ k a, s = .var k ∧ (g.afterRequests requests).symbol? i = some a ∧
            (statementTexts (g.afterRequests requests).statements)[k]? =
              some ("let " ++ variableName k ++ " = " ++ (angle.wave form).text a.text) := by
  have turned := turned_angle phase
  refine ⟨_, turned, fun primitive t => ?_, ?_⟩
  · rw [IntegerCode.value_wave, turned.value]
  · intro phase' same g requests node i rest s stored wave inputs lowered
    have numbered := Context.Numbered.of_steps (g.afterRequests_steps requests)
    have emits : node.emits = true := by
      simp only [Node.emits, wave]
    obtain ⟨t, args, rfl, ht, follows⟩ := numbered.exists_follows stored emits lowered
    have bound := follows.bound
    rw [inputs] at bound
    obtain ⟨a, others, ha, -, rfl⟩ := List.forall₂_cons_left_iff.mp bound
    have rule := follows.rule
    rw [Node.lowered_wave wave, phaseShift_congr same] at rule
    refine ⟨t.index, a, rfl, ha, ?_⟩
    rw [statementTexts, List.getElem?_map, ht, Option.map_some, Statement.text_wave rule]

/-- A graph with two square waves of one input, one turned by one turn and a quarter, and the other
back by three quarters of a turn. -/
def turnedGraph : Graph :=
  let wave (id : UInt32) (phase : UInt64) : Node :=
    ⟨⟨id⟩, .visual, .wave "square" ⟨phase⟩, [⟨0⟩]⟩
  ⟨[⟨⟨0⟩, .visual, .input "t", []⟩, wave 1 0x3FF4000000000000, wave 2 0xBFE8000000000000], ⟨3⟩⟩

/-- Both waves of `turnedGraph` are shifted by a quarter of a turn. -/
theorem lower_wave_turns_turnedGraph :
    phaseUnits ⟨0x3FF4000000000000⟩ = 4500 ∧ phaseUnits ⟨0xBFE8000000000000⟩ = -2700 ∧
      ∀ id ∈ [NodeId.mk 1, ⟨2⟩],
        (statementTexts (turnedGraph.afterRequests [id]).statements)[0]? =
          some "let v0 = (if ((t + 900) mod 3600) < 1800: 1000 else: -1000)" := by
  have forward : phaseUnits ⟨0x3FF4000000000000⟩ = 4500 := by
    rw [phaseUnits, ← Binary64.round_eq]
    decide +kernel
  have back : phaseUnits ⟨0xBFE8000000000000⟩ = -2700 := by
    rw [phaseUnits, ← Binary64.round_eq]
    decide +kernel
  obtain ⟨angle, turned, -, texts⟩ := lower_wave_turns .square ⟨0x3FF4000000000000⟩
  rw [forward] at turned texts
  obtain ⟨s, lower, upper, same, rfl⟩ := turned.shifted (by decide)
  obtain rfl : s = 900 := by
    unfold Int.ModEq at same
    omega
  refine ⟨forward, back, fun id hid => ?_⟩
  have both : ∃ phase : Binary64, phaseUnits phase ≡ 4500 [ZMOD 3600] ∧
      turnedGraph.node? id = some ⟨id, .visual, .wave "square" phase, [⟨0⟩]⟩ ∧
      (turnedGraph.afterRequests [id]).symbol? id = some (.var 0) ∧
      (turnedGraph.afterRequests [id]).symbol? ⟨0⟩ = some (.parameter "t") := by
    simp only [List.mem_cons, List.not_mem_nil, or_false] at hid
    rcases hid with rfl | rfl
    · exact ⟨_, forward ▸ rfl, rfl, by decide +kernel, by decide +kernel⟩
    · exact ⟨_, back ▸ rfl, rfl, by decide +kernel, by decide +kernel⟩
  obtain ⟨phase, units, stored, lowered, input⟩ := both
  obtain ⟨k, a, hk, ha, text⟩ := texts phase units turnedGraph [id]
    ⟨id, .visual, .wave "square" phase, [⟨0⟩]⟩ ⟨0⟩ [] (.var 0) stored rfl rfl lowered
  cases hk
  cases ha.symm.trans input
  exact text.trans (by decide)

end NodeGraph
