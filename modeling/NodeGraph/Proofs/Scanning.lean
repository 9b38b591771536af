import Mathlib.Data.List.DropRight
import NodeGraph.Proofs.Reading

/-!
# Scanning a document

Where the members of an object end can be told without reading them: count the brackets that are
open, and mind the strings. `Place` is what a scanner has to remember, and `Place.step` what a
character does to it. A text is `Whole` when a scanner that starts on the outside of it ends there:
its brackets match, its strings are closed, and no comma and no closing bracket stands outside of
them. So the first comma or bracket after a whole text is where the text ends (`Whole.unique`), and
an object falls into its members in one way only.

The blanks around a member are not part of it (`trim`).
-/

namespace NodeGraph.Document

/-! ### Places -/

/-- What can follow an element of a list or a member of an object: a comma or a closing bracket. -/
def isEnd (c : Char) : Bool := c == ',' || c == ']' || c == '\x7d'

/-- Where a scanner stands, and how many brackets are open there. -/
inductive Place where
  | outside (depth : Nat)
  | inString (depth : Nat)
  /-- In a string, after a backslash. -/
  | escaped (depth : Nat)
deriving DecidableEq

namespace Place

/-- The place after a character. With no bracket open, a comma and a closing bracket end the text
and are not gone past. -/
def step : Place → Char → Option Place
  | outside depth, c =>
    if c = '"' then some (inString depth)
    else if c = '[' ∨ c = '\x7b' then some (outside (depth + 1))
    else if depth = 0 ∧ isEnd c then none
    else if c = ']' ∨ c = '\x7d' then some (outside (depth - 1))
    else some (outside depth)
  | inString depth, c =>
    if c = '"' then some (outside depth)
    else if c = '\\' then some (escaped depth)
    else some (inString depth)
  | escaped depth, _ => some (inString depth)

/-- The place after a text. -/
def after (place : Place) (text : List Char) : Option Place := text.foldlM step place

/-- The same place inside some more brackets. -/
def raise (more : Nat) : Place → Place
  | outside depth => outside (depth + more)
  | inString depth => inString (depth + more)
  | escaped depth => escaped (depth + more)

@[simp] theorem after_nil (place : Place) : place.after [] = some place := rfl

@[simp] theorem after_cons (place : Place) (c : Char) (text : List Char) :
    place.after (c :: text) = (place.step c).bind (·.after text) := rfl

theorem after_append (place : Place) (text text' : List Char) :
    place.after (text ++ text') = (place.after text).bind (·.after text') :=
  List.foldlM_append

theorem step_raise {place next : Place} {c : Char} (more : Nat) (h : place.step c = some next) :
    (place.raise more).step c = some (next.raise more) := by
  cases place with
  | outside depth =>
    simp only [step, raise] at h ⊢
    grind [raise, isEnd]
  | inString depth =>
    simp only [step, raise] at h ⊢
    grind [raise]
  | escaped depth =>
    cases h
    rfl

/-- Brackets that were opened before do not change what a scanner does. -/
theorem after_raise {place last : Place} {text : List Char} (more : Nat)
    (h : place.after text = some last) :
    (place.raise more).after text = some (last.raise more) := by
  induction text generalizing place with
  | nil =>
    cases h
    rfl
  | cons c text ih =>
    obtain ⟨next, step, others⟩ := Option.bind_eq_some_iff.mp h
    rw [after_cons, step_raise more step]
    exact ih others

/-- An end with no bracket open is not gone past. -/
theorem step_isEnd {c : Char} (h : isEnd c = true) : (outside 0).step c = none := by
  simp only [isEnd, Bool.or_eq_true, beq_iff_eq] at h
  rcases h with (rfl | rfl) | rfl <;> rfl

end Place

/-- The brackets and strings of a text are closed in it, and it has no end on the outside. -/
def Whole (text : List Char) : Prop := (Place.outside 0).after text = some (.outside 0)

instance (text : List Char) : Decidable (Whole text) := inferInstanceAs (Decidable (_ = _))

theorem Whole.append {text text' : List Char} (h : Whole text) (h' : Whole text') :
    Whole (text ++ text') := by
  unfold Whole at *
  rw [Place.after_append, h]
  exact h'

/-- A text with an end on the outside is not whole. -/
theorem Whole.not_append {text rest : List Char} {c : Char} (h : Whole text)
    (hc : isEnd c = true) : ¬Whole (text ++ c :: rest) := by
  unfold Whole at *
  rw [Place.after_append, h, Option.bind_some, Place.after_cons, Place.step_isEnd hc]
  simp

/-- The first end after a whole text is where it ends. -/
theorem Whole.unique {text text' rest rest' : List Char} {c d : Char} (h : Whole text)
    (h' : Whole text') (hc : isEnd c = true) (hd : isEnd d = true)
    (e : text ++ c :: rest = text' ++ d :: rest') : text = text' ∧ c :: rest = d :: rest' := by
  rcases List.append_eq_append_iff.mp e with ⟨more, rfl, e⟩ | ⟨more, rfl, e⟩
  · cases more with
    | nil => simpa using e
    | cons x more =>
      obtain ⟨rfl, -⟩ : c = x ∧ rest = more ++ d :: rest' := by simpa using e
      exact absurd h' (h.not_append hc)
  · cases more with
    | nil => exact ⟨by simp, by simpa [eq_comm] using e⟩
    | cons x more =>
      obtain ⟨rfl, -⟩ : x = d ∧ more ++ c :: rest = rest' := by simpa using e
      exact absurd h (h'.not_append hd)

/-! ### Blanks -/

/-- Nothing but blanks. -/
def Blanks (text : List Char) : Prop := ∀ c ∈ text, isBlank c = true

instance (text : List Char) : Decidable (Blanks text) := List.decidableBAll _ text

/-- A text without the blanks around it. -/
def trim (text : List Char) : List Char := (skipBlanks text).rdropWhile isBlank

/-- The text ends with a character that is no blank. -/
def Solid (text : List Char) : Prop := ∃ front c, text = front ++ [c] ∧ isBlank c = false

theorem isBlank_cases {c : Char} (h : isBlank c = true) :
    c = ' ' ∨ c = '\n' ∨ c = '\t' ∨ c = '\r' := by
  simpa [isBlank, or_assoc] using h

theorem Blanks.append {text text' : List Char} (h : Blanks text) (h' : Blanks text') :
    Blanks (text ++ text') :=
  List.forall_mem_append.mpr ⟨h, h'⟩

theorem Blanks.whole {text : List Char} (h : Blanks text) : Whole text := by
  induction text with
  | nil => rfl
  | cons c text ih =>
    have rest := ih fun d hd => h d (List.mem_cons_of_mem c hd)
    rcases isBlank_cases (h c List.mem_cons_self) with rfl | rfl | rfl | rfl <;> exact rest

theorem skipBlanks_append {blanks : List Char} (h : Blanks blanks) (text : List Char) :
    skipBlanks (blanks ++ text) = skipBlanks text :=
  List.dropWhile_append_of_pos h

theorem exists_skipBlanks (text : List Char) : ∃ blanks, Blanks blanks ∧
    text = blanks ++ skipBlanks text :=
  ⟨text.takeWhile isBlank, List.all_eq_true.mp List.all_takeWhile,
    List.takeWhile_append_dropWhile.symm⟩

theorem skipBlanks_eq_cons {text rest : List Char} {c : Char} (h : skipBlanks text = c :: rest) :
    (∃ blanks, Blanks blanks ∧ text = blanks ++ c :: rest) ∧ isBlank c = false := by
  obtain ⟨blanks, all, e⟩ := exists_skipBlanks text
  refine ⟨⟨blanks, all, h ▸ e⟩, ?_⟩
  have := List.head?_dropWhile_not isBlank text
  rw [show text.dropWhile isBlank = c :: rest from h] at this
  simpa using this

theorem Solid.append {text : List Char} (front : List Char) (h : Solid text) :
    Solid (front ++ text) := by
  obtain ⟨body, c, rfl, solid⟩ := h
  exact ⟨front ++ body, c, (List.append_assoc ..).symm, solid⟩

theorem Solid.ne_nil {text : List Char} (h : Solid text) : text ≠ [] := by
  obtain ⟨front, c, rfl, -⟩ := h
  simp

theorem solid_singleton {c : Char} (h : isBlank c = false) : Solid [c] := ⟨[], c, rfl, h⟩

/-- Blanks around a text that has none at its ends are trimmed away. -/
theorem trim_blanks {before text back : List Char} (hb : Blanks before) (hb' : Blanks back)
    (first : ∀ c ∈ text.head?, isBlank c = false) (solid : Solid text) :
    trim (before ++ text ++ back) = text := by
  obtain ⟨front, c, rfl, last⟩ := solid
  have start : skipBlanks (front ++ [c] ++ back) = front ++ [c] ++ back := by
    cases front with
    | nil => exact skipBlanks_cons last back
    | cons d front => exact skipBlanks_cons (first d rfl) _
  have dropped : ((front ++ [c]) ++ back).rdropWhile isBlank =
      (front ++ [c]).rdropWhile isBlank := by
    rw [List.rdropWhile, List.reverse_append,
      List.dropWhile_append_of_pos fun d hd => hb' d (List.mem_reverse.mp hd)]
    rfl
  rw [trim, List.append_assoc, skipBlanks_append hb, start, dropped,
    List.rdropWhile_concat_neg _ _ _ (by simp [last])]

/-- A text is its trimmed one with blanks around it. -/
theorem exists_trim (text : List Char) : ∃ before back, Blanks before ∧ Blanks back ∧
    text = before ++ trim text ++ back := by
  obtain ⟨before, hb, e⟩ := exists_skipBlanks text
  refine ⟨before, (skipBlanks text).rtakeWhile isBlank, hb, fun c => List.mem_rtakeWhile_imp, ?_⟩
  rw [trim, List.append_assoc, List.rdropWhile_append_rtakeWhile]
  exact e

/-! ### Closing -/

/-- The text leads from a place to the outside, and ends with what closes it. -/
structure Closes (start : Place) (text : List Char) : Prop where
  outside : start.after text = some (.outside 0)
  solid : Solid text

theorem Closes.append {start next : Place} {text text' : List Char}
    (h : start.after text = some next) (h' : Closes next text') : Closes start (text ++ text') := by
  refine ⟨?_, h'.solid.append text⟩
  rw [Place.after_append, h]
  exact h'.outside

theorem Closes.cons {start next : Place} {c : Char} {text : List Char}
    (h : start.step c = some next) (h' : Closes next text) : Closes start (c :: text) :=
  have first : start.after [c] = some next := by simp [h]
  Closes.append first h'

theorem Closes.of_cons {start next : Place} {c : Char} {text : List Char}
    (h : Closes start (c :: text)) (step : start.step c = some next) (more : next ≠ .outside 0) :
    Closes next text := by
  obtain ⟨outside, front, d, e, solid⟩ := h
  rw [Place.after_cons, step] at outside
  refine ⟨outside, ?_⟩
  cases front with
  | nil =>
    obtain ⟨rfl, rfl⟩ : c = d ∧ text = [] := by simpa using e
    exact absurd (Option.some.inj outside) more
  | cons x front => exact ⟨front, d, by simpa using (List.cons.inj e).2, solid⟩

theorem Closes.single {start : Place} {c : Char} (h : start.step c = some (.outside 0))
    (solid : isBlank c = false) : Closes start [c] :=
  ⟨by simp [h], solid_singleton solid⟩

/-- A whole text inside some brackets stays inside of them. -/
theorem Whole.within {text : List Char} (h : Whole text) (depth : Nat) :
    (Place.outside depth).after text = some (.outside depth) := by
  simpa [Place.raise] using Place.after_raise depth h

theorem Closes.blanks {depth : Nat} {blanks text : List Char} (h : Blanks blanks)
    (h' : Closes (.outside depth) text) : Closes (.outside depth) (blanks ++ text) :=
  Closes.append (h.whole.within depth) h'

end NodeGraph.Document
