import NodeGraph.Document.Graph
import NodeGraph.Proofs.Numerals
import NodeGraph.Proofs.Scanning

/-!
# How much of a text is read

A reader that reads something has taken some text off the front, and it is that text alone which is
read: it would be taken off the front of another text in the same way. This is not so for any other
text. A number goes on as long as there are digits, so what follows has to be a delimiter, or to
start as it did before (`Replaces`). A reader that keeps to this is `Regular`, and one regular
reader after the other makes a regular reader (`Regular.bind`), whatever the second one takes.

Along with it goes what a scanner makes of the text that was taken: it ends on the outside
(`Closes`). So the readers agree with the scanner on where a value ends.

This module is about the values without brackets: strings, words, numbers, ids and domains.
-/

namespace NodeGraph.Document

/-! ### What may follow -/

/-- What is never part of a number or a word: a blank, a colon, a comma or a closing bracket. -/
def isDelimiter (c : Char) : Bool := isBlank c || c == ':' || isEnd c

/-- The text goes on with a delimiter, or not at all. -/
def Delimited (text : List Char) : Prop := ∀ c ∈ text.head?, isDelimiter c = true

/-- A text that may stand in the place of another after what was read: it is delimited, or starts
with the same character. -/
def Replaces (rest' rest : List Char) : Prop := Delimited rest' ∨ rest'.head? = rest.head?

theorem Replaces.append (text : List Char) {rest' rest : List Char} (h : Replaces rest' rest) :
    Replaces (text ++ rest') (text ++ rest) := by
  cases text with
  | nil => exact h
  | cons c text => exact .inr rfl

/-- What holds of every delimiter and of the front of a text holds of the front of what replaces
it. -/
theorem Replaces.head? {p : Char → Prop} {rest' rest : List Char} (h : Replaces rest' rest)
    (delimiter : ∀ c, isDelimiter c = true → p c) (first : ∀ c ∈ rest.head?, p c) :
    ∀ c ∈ rest'.head?, p c := by
  intro c hc
  rcases h with h | h
  · exact delimiter c (h c hc)
  · exact first c (h ▸ hc)

theorem isDelimiter_cases {c : Char} (h : isDelimiter c = true) :
    isBlank c = true ∨ c = ':' ∨ c = ',' ∨ c = ']' ∨ c = '\x7d' := by
  simpa [isDelimiter, isEnd, or_assoc] using h

/-! ### Readers -/

/-- An answer that came out of two steps came out of each of them. -/
theorem bind_eq_ok {ε α β : Type} {x : Except ε α} {f : α → Except ε β} {b : β} :
    x >>= f = .ok b ↔ ∃ a, x = .ok a ∧ f a = .ok b := by
  cases x with
  | error fault =>
    constructor
    · rintro ⟨⟩
    · rintro ⟨_, ⟨⟩, _⟩
  | ok a =>
    constructor
    · intro h
      exact ⟨a, rfl, h⟩
    · rintro ⟨_, ⟨⟩, h⟩
      exact h

/-- The reader took a text `P` holds of off the front, and takes it off the front of whatever can
stand in the place of the rest. -/
def Takes {α : Type} (P : List Char → Prop) (reader : Reader α) (text : List Char) (a : α)
    (rest : List Char) : Prop :=
  ∃ taken, text = taken ++ rest ∧ P taken ∧
    ∀ rest', Replaces rest' rest → reader (taken ++ rest') = .ok (a, rest')

/-- Whatever the reader reads it takes so. -/
def Regular {α : Type} (P : List Char → Prop) (reader : Reader α) : Prop :=
  ∀ text a rest, reader text = .ok (a, rest) → Takes P reader text a rest

/-- Going past something, as reading nothing. -/
def passing (pass : List Char → Except Malformed (List Char)) : Reader Unit :=
  fun text => pass text >>= fun rest => .ok ((), rest)

theorem passing_eq_ok {pass : List Char → Except Malformed (List Char)} {text rest : List Char} :
    passing pass text = .ok ((), rest) ↔ pass text = .ok rest := by
  rw [passing, bind_eq_ok]
  simp

section Readers

variable {α β : Type} {P Q R : List Char → Prop}

theorem Regular.mono {reader : Reader α} (h : Regular P reader) (imp : ∀ text, P text → Q text) :
    Regular Q reader := by
  intro text a rest read
  obtain ⟨taken, e, p, again⟩ := h text a rest read
  exact ⟨taken, e, imp taken p, again⟩

/-- One reader after the other. -/
theorem Regular.bind {reader : Reader α} {next : α → Reader β} (h : Regular P reader)
    (h' : ∀ a, Regular Q (next a)) (join : ∀ u v, P u → Q v → R (u ++ v)) :
    Regular R fun text => reader text >>= fun read => next read.1 read.2 := by
  intro text b rest read
  obtain ⟨⟨a, between⟩, first, second⟩ := bind_eq_ok.mp read
  obtain ⟨u, rfl, p, again⟩ := h text a between first
  obtain ⟨v, rfl, q, again'⟩ := h' a between b rest second
  refine ⟨u ++ v, (List.append_assoc ..).symm, join u v p q, fun rest' stands => ?_⟩
  refine bind_eq_ok.mpr ⟨(a, v ++ rest'), ?_, again' rest' stands⟩
  rw [List.append_assoc]
  exact again (v ++ rest') (stands.append v)

/-- An answer that does not look at the text. -/
theorem regular_answer (answer : Except Malformed α) :
    Regular (· = []) fun text => answer >>= fun a => .ok (a, text) := by
  intro text a rest read
  obtain ⟨b, e, read⟩ := bind_eq_ok.mp read
  cases read
  exact ⟨[], rfl, rfl, fun rest' _ => bind_eq_ok.mpr ⟨a, e, rfl⟩⟩

theorem Regular.andThen {reader : Reader α} (h : Regular P reader) (f : α → Except Malformed β) :
    Regular P fun text => reader text >>= fun read => f read.1 >>= fun b => .ok (b, read.2) :=
  h.bind (fun a => regular_answer (f a)) fun u v hu hv => by simpa [hv] using hu

theorem Regular.map {reader : Reader α} (h : Regular P reader) (f : α → β) :
    Regular P fun text => reader text >>= fun read => .ok (f read.1, read.2) :=
  h.andThen fun a => .ok (f a)

/-- One more character in front. -/
theorem Takes.cons {reader inner : Reader α} {c : Char} {text rest : List Char} {a : α}
    (same : ∀ text, reader (c :: text) = inner text) (h : Takes P inner text a rest)
    (join : ∀ u, P u → Q (c :: u)) : Takes Q reader (c :: text) a rest := by
  obtain ⟨taken, rfl, p, again⟩ := h
  refine ⟨c :: taken, rfl, join taken p, fun rest' stands => ?_⟩
  rw [List.cons_append, same]
  exact again rest' stands

/-- What is taken starts with the first character of the text. -/
theorem Regular.cons {start : Place} {reader : Reader α} (h : Regular (Closes start) reader)
    {c : Char} {text rest : List Char} {a : α} (read : reader (c :: text) = .ok (a, rest)) :
    ∃ taken, text = taken ++ rest ∧ Closes start (c :: taken) ∧
      ∀ rest', Replaces rest' rest → reader (c :: (taken ++ rest')) = .ok (a, rest') := by
  obtain ⟨taken, e, closes, again⟩ := h _ _ _ read
  obtain ⟨rfl, -⟩ | ⟨taken, rfl, rfl⟩ := List.cons_eq_append_iff.mp e
  · obtain ⟨front, c, e, -⟩ := closes.solid
    simp at e
  · exact ⟨taken, rfl, closes, again⟩

/-- A reader that goes past blanks is regular when it is after them. -/
theorem regular_of_skipBlanks {depth : Nat} {reader : Reader α}
    (skips : ∀ text, reader text = reader (skipBlanks text))
    (h : ∀ c text a rest, isBlank c = false → reader (c :: text) = .ok (a, rest) →
      Takes (Closes (.outside depth)) reader (c :: text) a rest)
    (nothing : ∀ read, reader [] ≠ .ok read) :
    Regular (Closes (.outside depth)) reader := by
  intro text a rest read
  rw [skips] at read
  cases e : skipBlanks text with
  | nil => exact absurd (e ▸ read) (nothing _)
  | cons c inside =>
    obtain ⟨⟨blanks, all, rfl⟩, solid⟩ := skipBlanks_eq_cons e
    rw [e] at read
    obtain ⟨taken, e', closes, again⟩ := h c inside a rest solid read
    refine ⟨blanks ++ taken, ?_, closes.blanks all, fun rest' stands => ?_⟩
    · rw [List.append_assoc, e']
    · rw [List.append_assoc, skips, skipBlanks_append all, ← skips]
      exact again rest' stands

end Readers

/-! ### Strings -/

/-- The text stays inside a string. -/
def Quoted (text : List Char) : Prop := (Place.inString 0).after text = some (.inString 0)

theorem Quoted.append {text text' : List Char} (h : Quoted text) (h' : Quoted text') :
    Quoted (text ++ text') := by
  unfold Quoted at *
  rw [Place.after_append, h]
  exact h'

/-- A digit of base sixteen neither ends a string nor escapes anything. -/
theorem quoted_of_hexValue? {c : Char} {n : Nat} (h : hexValue? c = some n) : Quoted [c] := by
  have quote : c ≠ '"' := by rintro rfl; cases h
  have backslash : c ≠ '\\' := by rintro rfl; cases h
  simp [Quoted, Place.step, quote, backslash]

theorem regular_hexFour : Regular Quoted hexFour := by
  intro text n rest read
  unfold hexFour at read
  split at read
  · rename_i a b c d _
    split at read
    · rename_i ha hb hc hd
      cases read
      refine ⟨[a, b, c, d], rfl, ?_, fun rest' _ => ?_⟩
      · exact (quoted_of_hexValue? ha).append <| (quoted_of_hexValue? hb).append <|
          (quoted_of_hexValue? hc).append (quoted_of_hexValue? hd)
      · simp only [List.cons_append, List.nil_append, hexFour, ha, hb, hc, hd]
    · cases read
  · split at read <;> cases read

theorem regular_looseUnicodeEscape : Regular Quoted looseUnicodeEscape :=
  regular_hexFour.bind (fun n => regular_answer (.ok (Char.ofNat n))) fun u v hu hv => by
    simpa [hv] using hu

theorem regular_unicodeEscape : Regular Quoted unicodeEscape := by
  intro text char rest read
  unfold unicodeEscape at read
  rw [bind_eq_ok] at read
  obtain ⟨⟨n, between⟩, four, read⟩ := read
  obtain ⟨u, rfl, quoted, again⟩ := regular_hexFour _ _ _ four
  dsimp only at read
  split at read
  · cases read
  rename_i trailing
  split at read
  · rename_i leading
    split at read
    · cases read
    · cases read
    · rw [bind_eq_ok] at read
      obtain ⟨⟨m, between⟩, four', read⟩ := read
      obtain ⟨v, rfl, quoted', again'⟩ := regular_hexFour _ _ _ four'
      dsimp only at read
      split at read
      · rename_i trailing'
        simp only [pure, Except.pure, Except.ok.injEq, Prod.mk.injEq] at read
        obtain ⟨rfl, rfl⟩ := read
        have escape : Quoted ['\\', 'u'] := rfl
        refine ⟨u ++ (['\\', 'u'] ++ v), by simp, quoted.append (escape.append quoted'),
          fun rest' stands => ?_⟩
        have first := again ('\\' :: 'u' :: (v ++ rest')) (.inr rfl)
        simp only [List.append_assoc, List.cons_append, List.nil_append]
        unfold unicodeEscape
        simp only [first, again' rest' stands, bind, Except.bind, trailing, leading, trailing']
        simp [pure, Except.pure]
      · cases read
    · cases read
  · rename_i leading
    cases read
    refine ⟨u, rfl, quoted, fun rest' stands => ?_⟩
    unfold unicodeEscape
    simp [again rest' stands, bind, Except.bind, trailing, leading, pure, Except.pure]

/-- What is taken off a string with its next character, or with its closing mark. -/
def Stepped : Option Char → List Char → Prop
  | none, taken => Closes (.inString 0) taken
  | some _, taken => Quoted taken

theorem stringStep_eq_ok {unicode : Reader Char} (regular : Regular Quoted unicode)
    {text rest : List Char} {char : Option Char}
    (read : stringStep unicode text = .ok (char, rest)) :
    Takes (fun taken => taken ≠ [] ∧ Stepped char taken) (stringStep unicode) text char rest := by
  unfold stringStep at read
  split at read
  · cases read
  · cases read
    exact ⟨['"'], rfl, ⟨by simp, .single rfl rfl⟩, fun rest' _ => rfl⟩
  · cases read
  · rw [bind_eq_ok] at read
    obtain ⟨⟨c, between⟩, escape, read⟩ := read
    cases read
    obtain ⟨u, rfl, quoted, again⟩ := regular _ _ _ escape
    refine ⟨'\\' :: 'u' :: u, rfl, ⟨by simp, quoted⟩, fun rest' stands => ?_⟩
    simp only [List.cons_append, stringStep, again rest' stands, bind, Except.bind, pure,
      Except.pure]
  · rename_i c inside notNumbered
    split at read
    · rename_i d escape
      cases read
      refine ⟨['\\', c], rfl, ⟨by simp, rfl⟩, fun rest' _ => ?_⟩
      rw [List.cons_append, List.cons_append, List.nil_append, stringStep]
      · simp only [escape]
      · exact notNumbered
    · cases read
  · rename_i c inside notQuote short _ escape
    have quote : c ≠ '"' := notQuote
    have backslash : c ≠ '\\' := by
      rintro rfl
      cases inside with
      | nil => exact short rfl rfl
      | cons d inside => exact escape d inside rfl rfl
    split at read
    · cases read
    · rename_i control
      cases read
      refine ⟨[c], rfl, ⟨by simp, ?_⟩, fun rest' _ => ?_⟩
      · change Quoted [c]
        simp [Quoted, Place.step, quote, backslash]
      · rw [List.cons_append, List.nil_append, stringStep]
        · rw [if_neg control]
        all_goals simp [quote, backslash]

/-- A clock that is as long as two texts outlasts the second after a round for the first. -/
theorem exists_clock {u : List Char} (v : List Char) {clock : List Char} (some : u ≠ [])
    (long : (u ++ v).length ≤ clock.length) :
    ∃ c clock', clock = c :: clock' ∧ v.length ≤ clock'.length := by
  have positive := List.length_pos_iff.mpr some
  rw [List.length_append] at long
  cases clock with
  | nil =>
    rw [List.length_nil] at long
    omega
  | cons c clock =>
    rw [List.length_cons] at long
    exact ⟨c, clock, rfl, by omega⟩

/-- A string is taken up to its closing mark, and a clock that is as long as what is taken is long
enough. -/
theorem stringWithin_eq_ok {unicode : Reader Char} (regular : Regular Quoted unicode)
    {clock text rest cs : List Char} (read : stringWithin unicode clock text = .ok (cs, rest)) :
    ∃ taken, text = taken ++ rest ∧ Closes (.inString 0) taken ∧
      ∀ rest' clock', Replaces rest' rest → taken.length ≤ clock'.length →
        stringWithin unicode clock' (taken ++ rest') = .ok (cs, rest') := by
  induction clock generalizing text cs with
  | nil => cases read
  | cons _ clock ih =>
    rw [stringWithin, bind_eq_ok] at read
    obtain ⟨⟨char, between⟩, step, read⟩ := read
    obtain ⟨u, rfl, ⟨some, stepped⟩, again⟩ := stringStep_eq_ok regular step
    cases char with
    | none =>
      cases read
      refine ⟨u, rfl, stepped, fun rest' clock' stands long => ?_⟩
      obtain ⟨d, clock', rfl, -⟩ := exists_clock [] some (by simpa using long)
      simp [stringWithin, again rest' stands, bind, Except.bind, pure, Except.pure]
    | some c =>
      rw [bind_eq_ok] at read
      obtain ⟨⟨ds, between⟩, others, read⟩ := read
      cases read
      obtain ⟨v, rfl, closes, again'⟩ := ih others
      refine ⟨u ++ v, by simp, .append stepped closes, fun rest' clock' stands long => ?_⟩
      obtain ⟨d, clock', rfl, long'⟩ := exists_clock v some long
      simp [stringWithin, again (v ++ rest') (stands.append v), again' rest' clock' stands long',
        bind, Except.bind, pure, Except.pure]

theorem regular_string : Regular (Closes (.inString 0)) string := by
  intro text s rest read
  unfold string at read
  rw [bind_eq_ok] at read
  obtain ⟨⟨cs, between⟩, within, read⟩ := read
  cases read
  obtain ⟨u, rfl, closes, again⟩ := stringWithin_eq_ok regular_unicodeEscape within
  refine ⟨u, rfl, closes, fun rest' stands => ?_⟩
  simp [string, again rest' (u ++ rest') stands (by simp), bind, Except.bind, pure, Except.pure]

theorem regular_skipString : Regular (Closes (.inString 0)) (passing skipString) := by
  intro text s rest read
  rw [passing_eq_ok, skipString, bind_eq_ok] at read
  obtain ⟨⟨cs, between⟩, within, read⟩ := read
  cases read
  obtain ⟨u, rfl, closes, again⟩ := stringWithin_eq_ok regular_looseUnicodeEscape within
  refine ⟨u, rfl, closes, fun rest' stands => passing_eq_ok.mpr ?_⟩
  simp [skipString, again rest' (u ++ rest') stands (by simp), bind, Except.bind, pure, Except.pure]

/-! ### Words and numbers -/

/-- No character of the text is a blank, or stands for anything to a scanner. -/
def Plain (text : List Char) : Prop :=
  ∀ c ∈ text, isBlank c = false ∧ (Place.outside 0).step c = some (.outside 0)

instance (text : List Char) : Decidable (Plain text) := List.decidableBAll _ text

theorem Plain.append {text text' : List Char} (h : Plain text) (h' : Plain text') :
    Plain (text ++ text') :=
  List.forall_mem_append.mpr ⟨h, h'⟩

theorem Plain.whole {text : List Char} (h : Plain text) : Whole text := by
  induction text with
  | nil => rfl
  | cons c text ih =>
    have rest := ih fun d hd => h d (List.mem_cons_of_mem c hd)
    rw [Whole, Place.after_cons, (h c List.mem_cons_self).2]
    exact rest

theorem Plain.closes {text : List Char} (h : Plain text) (some : text ≠ []) :
    Closes (.outside 0) text := by
  obtain ⟨front, c, rfl⟩ := text.eq_nil_or_concat'.resolve_left some
  exact ⟨h.whole, front, c, rfl, (h c (by simp)).1⟩

theorem plain_of_isDigit {text : List Char} (h : ∀ c ∈ text, c.isDigit = true) : Plain text := by
  intro c hc
  have digit := h c hc
  have ne (d : Char) (hd : d.isDigit = false) : c ≠ d := by
    rintro rfl
    exact Bool.false_ne_true (hd.symm.trans digit)
  refine ⟨isBlank_of_isDigit digit, ?_⟩
  simp [Place.step, isEnd, ne '"' rfl, ne '[' rfl, ne '\x7b' rfl, ne ']' rfl, ne '\x7d' rfl,
    ne ',' rfl]

theorem word_eq_ok {expected text rest : List Char} :
    word expected text = .ok rest ↔ text = expected ++ rest := by
  fun_induction word expected text with
  | case1 text => simp
  | case2 => simp
  | case3 expected c text ih => simp [ih]
  | case4 c expected d text e => simp [Ne.symm e]

theorem not_isDigit_of_isDelimiter (c : Char) (h : isDelimiter c = true) : c.isDigit = false := by
  rcases isDelimiter_cases h with h | rfl | rfl | rfl | rfl
  · rw [Bool.eq_false_iff]
    intro digit
    exact Bool.false_ne_true ((isBlank_of_isDigit digit).symm.trans h)
  all_goals rfl

theorem regular_someDigits (ended : Malformed) :
    Regular (fun taken => Plain taken ∧ taken ≠ []) (someDigits ended) := by
  intro text ds rest read
  obtain ⟨rfl, some, all, stop⟩ := someDigits_eq_ok read
  exact ⟨ds, rfl, ⟨plain_of_isDigit all, some⟩, fun rest' stands =>
    someDigits_append some all (stands.head? not_isDigit_of_isDelimiter stop)⟩

theorem regular_wholeDigits (ended : Malformed) :
    Regular (fun taken => Plain taken ∧ taken ≠ []) (wholeDigits ended) := by
  intro text ds rest read
  unfold wholeDigits at read
  rw [bind_eq_ok] at read
  obtain ⟨⟨ds', between⟩, digits, read⟩ := read
  obtain ⟨u, rfl, plain, again⟩ := regular_someDigits ended _ _ _ digits
  dsimp only at read
  split at read
  · cases read
  · rename_i lead
    cases read
    refine ⟨u, rfl, plain, fun rest' stands => ?_⟩
    unfold wholeDigits
    rw [again rest' stands]
    simp only [bind, Except.bind]
    rfl

theorem regular_fractionDigits (ended : Malformed) : Regular Plain (fractionDigits ended) := by
  intro text ds rest read
  unfold fractionDigits at read
  split at read
  · obtain ⟨u, rfl, ⟨plain, _⟩, again⟩ := regular_someDigits ended _ _ _ read
    have point : Plain ['.'] := by decide
    exact ⟨'.' :: u, rfl, point.append plain, again⟩
  · rename_i noPoint
    cases read
    refine ⟨[], rfl, by decide, fun rest' stands => ?_⟩
    have noPoint' : ∀ c ∈ rest'.head?, c ≠ '.' := by
      refine stands.head? ?_ ?_
      · rintro c h rfl
        cases h
      · rintro c h rfl
        obtain ⟨tail, rfl⟩ := List.head?_eq_some_iff.mp h
        exact noPoint tail rfl
    rw [List.nil_append, fractionDigits]
    rintro tail rfl
    exact noPoint' '.' rfl rfl

/-- The sign of an exponent is told by its first character. -/
theorem exists_exponentSign (text : List Char) : ∃ sign, Plain sign ∧
    text = sign ++ (exponentSign text).2 ∧
      ∀ rest, rest.head? = (exponentSign text).2.head? →
        exponentSign (sign ++ rest) = ((exponentSign text).1, rest) := by
  unfold exponentSign
  split
  · exact ⟨['-'], by decide, rfl, fun rest _ => rfl⟩
  · exact ⟨['+'], by decide, rfl, fun rest _ => rfl⟩
  · rename_i noMinus noPlus
    refine ⟨[], by decide, rfl, fun rest same => ?_⟩
    dsimp only [List.nil_append] at same ⊢
    split
    · obtain ⟨tail, e⟩ := List.head?_eq_some_iff.mp same.symm
      exact absurd e (noMinus tail)
    · obtain ⟨tail, e⟩ := List.head?_eq_some_iff.mp same.symm
      exact absurd e (noPlus tail)
    · rfl

theorem regular_exponentDigits (ended : Malformed) : Regular Plain (exponentDigits ended) := by
  intro text e rest read
  have none {rest rest' : List Char} (stands : Replaces rest' rest)
      (noMark : ∀ c ∈ rest.head?, ¬(c = 'e' ∨ c = 'E')) :
      exponentDigits ended rest' = .ok ((false, []), rest') := by
    have noMark' := stands.head? (fun c h => by rintro (rfl | rfl) <;> cases h) noMark
    cases rest' with
    | nil => rfl
    | cons c rest' => rw [exponentDigits, if_neg (noMark' c rfl)]
  cases text with
  | nil =>
    cases read
    exact ⟨[], rfl, by decide, fun rest' stands => none stands (by simp)⟩
  | cons c text =>
    by_cases mark : c = 'e' ∨ c = 'E'
    · rw [exponentDigits, if_pos mark] at read
      rw [bind_eq_ok] at read
      obtain ⟨⟨ds, between⟩, digits, read⟩ := read
      cases read
      obtain ⟨sign, plain, e, again⟩ := exists_exponentSign text
      obtain ⟨u, e', ⟨plain', some⟩, again'⟩ := regular_someDigits ended _ _ _ digits
      have plain'' : Plain [c] := by rcases mark with rfl | rfl <;> decide
      refine ⟨[c] ++ (sign ++ u), ?_, plain''.append (plain.append plain'), fun rest' stands => ?_⟩
      · rw [e, e']
        simp
      · have first : (u ++ rest').head? = (exponentSign text).2.head? := by
          rw [e', List.head?_append_of_ne_nil _ some, List.head?_append_of_ne_nil _ some]
        rw [List.append_assoc, List.append_assoc, List.cons_append, List.nil_append,
          exponentDigits, if_pos mark, again (u ++ rest') first]
        simp only [again' rest' stands]
        rfl
    · rw [exponentDigits, if_neg mark] at read
      cases read
      exact ⟨[], rfl, by decide, fun rest' stands => none stands (by simpa using mark)⟩

theorem regular_numberParts (ended : Malformed) (negative : Bool) :
    Regular (Closes (.outside 0)) (numberParts ended negative) := by
  have parts : Regular (fun taken => Plain taken ∧ taken ≠ []) (numberParts ended negative) :=
    (regular_wholeDigits ended).bind (fun whole =>
      (regular_fractionDigits ended).bind (fun fraction =>
        (regular_exponentDigits ended).bind (fun exponent =>
          regular_answer (.ok (NumberText.mk negative whole fraction
            (!(fraction.isEmpty && exponent.2.isEmpty)) exponent.1 exponent.2)))
          fun u v hu hv => (by simpa [hv] using hu : Plain (u ++ v)))
        fun u v => Plain.append)
      fun u v hu hv => ⟨hu.1.append hv, by simp [hu.2]⟩
  exact parts.mono fun text h => h.1.closes h.2

theorem regular_number (negative : Bool) : Regular (Closes (.outside 0)) (number negative) :=
  (regular_numberParts .endInValue negative).bind (fun parts => regular_answer parts.value)
    fun u v hu hv => by simpa [hv] using hu

/-! ### Values without brackets -/

@[simp] theorem skipBlanks_skipBlanks (text : List Char) :
    skipBlanks (skipBlanks text) = skipBlanks text :=
  List.dropWhile_idempotent ..

theorem regular_colon : Regular (Closes (.outside 0)) (passing colon) := by
  refine regular_of_skipBlanks (fun text => by simp only [passing, colon, skipBlanks_skipBlanks])
    (fun c text a rest solid read => ?_) (fun read h => by cases h)
  rw [passing_eq_ok, colon, skipBlanks_cons solid] at read
  split at read
  · cases read
  · rename_i e
    cases e
    cases read
    exact ⟨[':'], rfl, .single rfl rfl, fun rest' _ => rfl⟩
  · cases read

/-- A letter and a word after it. -/
theorem takes_word {α : Type} {reader : Reader α} {a b : α} {c : Char} (expected : List Char)
    {text rest : List Char} (plain : Plain (c :: expected))
    (same : ∀ text, reader (c :: text) = word expected text >>= fun rest => .ok (a, rest))
    (read : reader (c :: text) = .ok (b, rest)) :
    Takes (Closes (.outside 0)) reader (c :: text) b rest := by
  rw [same, bind_eq_ok] at read
  obtain ⟨between, read, e⟩ := read
  cases e
  obtain rfl := word_eq_ok.mp read
  refine ⟨c :: expected, rfl, plain.closes (by simp), fun rest' _ => ?_⟩
  rw [List.cons_append, same, word_eq_ok.mpr rfl]
  rfl

theorem regular_scalar : Regular (Closes (.outside 0)) scalar := by
  intro text x rest read
  have number' (negative : Bool) := (regular_number negative).map Value.number
  have scalar_eq := read
  unfold scalar at read
  split at read
  · exact takes_word ['u', 'l', 'l'] (by decide) (fun _ => rfl) scalar_eq
  · exact takes_word ['r', 'u', 'e'] (by decide) (fun _ => rfl) scalar_eq
  · exact takes_word ['a', 'l', 's', 'e'] (by decide) (fun _ => rfl) scalar_eq
  · exact (regular_string.map Value.string _ _ _ read).cons (fun _ => rfl) fun u h => h.cons rfl
  · exact (number' true _ _ _ read).cons (fun _ => rfl) fun u h => h.cons rfl
  · rename_i c text _ _ _ _ _
    split at read
    · rename_i digit
      rw [bind_eq_ok] at read
      obtain ⟨⟨n, between⟩, read, e⟩ := read
      cases e
      obtain ⟨u, rfl, closes, again⟩ := (regular_number false).cons read
      exact ⟨c :: u, rfl, closes, fun rest' stands => scalar_of_digit digit (again rest' stands)⟩
    · cases read
  · cases read

/-- The id that a number stands for. -/
def idOf : Number → Except Malformed NodeId
  | .integer i =>
    if 0 ≤ i ∧ i < 4294967296 then .ok ⟨UInt32.ofNat i.toNat⟩
    else .error (.invalidValue (.integer i) .nodeId)
  | .float v => .error (.invalidType (.float v) .nodeId)

theorem nodeId_cons {c : Char} (solid : isBlank c = false) (text : List Char) :
    nodeId (c :: text) =
      if c = '-' then number true text >>= fun read => idOf read.1 >>= fun id => .ok (id, read.2)
      else if c.isDigit then
        number false (c :: text) >>= fun read => idOf read.1 >>= fun id => .ok (id, read.2)
      else .error (mismatch .nodeId (c :: text)) := by
  have numeral (read : Number × List Char) : (match read.1 with
        | .integer i =>
          if 0 ≤ i ∧ i < 4294967296 then .ok (⟨UInt32.ofNat i.toNat⟩, read.2)
          else .error (.invalidValue (.integer i) .nodeId)
        | .float v => .error (.invalidType (.float v) .nodeId)) =
      idOf read.1 >>= fun id => .ok (id, read.2) := by
    obtain ⟨n, rest⟩ := read
    cases n with
    | float v => rfl
    | integer i =>
      simp only [idOf]
      split <;> rfl
  unfold nodeId
  rw [skipBlanks_cons solid]
  simp only [← numeral]
  split
  · simp_all
  · rename_i e
    cases e
    rfl
  · rename_i c' text' minus e
    cases e
    rw [if_neg minus]
    rfl

theorem regular_nodeId : Regular (Closes (.outside 0)) nodeId := by
  refine regular_of_skipBlanks (fun text => by simp only [nodeId, skipBlanks_skipBlanks])
    (fun c text id rest solid read => ?_) (fun read h => by cases h)
  rw [nodeId_cons solid] at read
  split at read
  · rename_i minus
    subst minus
    refine ((regular_number true).andThen idOf _ _ _ read).cons (fun _ => ?_) fun u h => h.cons rfl
    rw [nodeId_cons solid, if_pos rfl]
  · rename_i minus
    split at read
    · rename_i digit
      obtain ⟨u, rfl, closes, again⟩ := ((regular_number false).andThen idOf).cons read
      refine ⟨c :: u, rfl, closes, fun rest' stands => ?_⟩
      rw [List.cons_append, nodeId_cons solid, if_neg minus, if_pos digit]
      exact again rest' stands
    · cases read

theorem regular_domainKey : Regular (Closes (.outside 0)) domainKey := by
  refine regular_of_skipBlanks (fun text => by simp only [domainKey, skipBlanks_skipBlanks])
    (fun c text id rest solid read => ?_) (fun read h => by cases h)
  rw [domainKey, skipBlanks_cons solid] at read
  split at read
  · cases read
  · rename_i e
    cases e
    exact (regular_string.andThen domainOf _ _ _ read).cons (fun _ => rfl) fun u h => h.cons rfl
  · cases read
  · cases read

theorem regular_nothing : Regular (Closes (.outside 0)) (passing nothing) := by
  refine regular_of_skipBlanks (fun text => by simp only [passing, nothing, skipBlanks_skipBlanks])
    (fun c text a rest solid read => ?_) (fun read h => by cases h)
  have nothing_eq := read
  rw [passing_eq_ok, nothing, skipBlanks_cons solid] at read
  split at read
  · cases read
  · rename_i e
    cases e
    exact takes_word ['u', 'l', 'l'] (by decide) (fun _ => rfl) nothing_eq
  · cases read

theorem regular_domain : Regular (Closes (.outside 0)) domain := by
  refine regular_of_skipBlanks (fun text => by simp only [domain, skipBlanks_skipBlanks])
    (fun c text d rest solid read => ?_) (fun read h => by cases h)
  rw [domain, skipBlanks_cons solid] at read
  split at read
  · cases read
  · rename_i e
    cases e
    exact (regular_string.andThen domainOf _ _ _ read).cons (fun _ => rfl) fun u h => h.cons rfl
  · rename_i e
    cases e
    rw [bind_eq_ok] at read
    obtain ⟨⟨d', between⟩, key, read⟩ := read
    rw [bind_eq_ok] at read
    obtain ⟨between', hc, read⟩ := read
    rw [bind_eq_ok] at read
    obtain ⟨between'', hn, read⟩ := read
    obtain ⟨u, rfl, closes, again⟩ := regular_domainKey _ _ _ key
    obtain ⟨v, rfl, closes', again'⟩ := regular_colon _ _ _ (passing_eq_ok.mpr hc)
    obtain ⟨w, rfl, closes'', again''⟩ := regular_nothing _ _ _ (passing_eq_ok.mpr hn)
    split at read
    · cases read
    · rename_i e
      cases read
      obtain ⟨⟨blanks, all, rfl⟩, -⟩ := skipBlanks_eq_cons e
      have tail : Closes (.outside 1) (blanks ++ ['\x7d']) := .blanks all (.single rfl rfl)
      have body := ((Whole.append closes.outside closes'.outside).append closes''.outside).within 1
      refine ⟨'\x7b' :: ((u ++ v ++ w) ++ (blanks ++ ['\x7d'])), by simp,
        .cons rfl (.append body tail), fun rest' _ => ?_⟩
      have close : Replaces (blanks ++ '\x7d' :: rest') (blanks ++ '\x7d' :: rest) :=
        Replaces.append blanks (.inr rfl)
      have key' := again _ ((close.append w).append v)
      have colon' := passing_eq_ok.mp (again' _ (close.append w))
      have nothing' := passing_eq_ok.mp (again'' _ close)
      simp only [List.cons_append, List.append_assoc, List.nil_append, domain,
        skipBlanks_cons solid, key', colon', nothing', bind, Except.bind, skipBlanks_append all,
        skipBlanks_cons (show isBlank '\x7d' = false from rfl)]
      rfl
    · cases read
  · cases read

end NodeGraph.Document
