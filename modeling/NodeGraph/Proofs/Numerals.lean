import NodeGraph.Proofs.Reading

/-!
# Numbers at the front of a text

A number ends where its digits end, so reading one does not depend on what follows it: each part of
the number reader that reads some text reads the same from a longer one, and leaves what was added
(`Stable`). So a number that is read from the whole of a text is read from the front of any text
that goes on as a document does (`scalar_append`).

The reader of numbers takes a text apart before it gives it a value, and taking apart undoes
writing: the parts of a number (`NumberText.Proper`) are read as they were written
(`numberParts_magnitudeText`).

The id of a node is written with its decimal digits and read back from them (`reads_nodeId`).
-/

namespace NodeGraph.Document

/-! ### Digits -/

theorem naturalOf_eq (ds : List Char) : naturalOf ds = Nat.ofDigitChars 10 ds 0 :=
  Nat.ofDigitChars_eq_foldl.symm

/-- The digits of a natural number do not start with a zero, unless it is zero. -/
theorem head?_toDigits {n : Nat} (h : 0 < n) : (Nat.toDigits 10 n).head? ≠ some '0' := by
  induction n using Nat.strongRecOn with
  | ind n ih =>
    rw [Nat.toDigits_eq_if (by decide)]
    split
    · intro e
      have : n = 0 := Nat.digitChar_eq_zero.mp (by simpa using e)
      omega
    · have first := ih (n / 10) (by omega) (by omega)
      rw [List.head?_append_of_ne_nil _ Nat.toDigits_ne_nil]
      exact first

/-- The digits at the front of a text that goes on with something else. -/
theorem digits_append {ds rest : List Char} (all : ∀ c ∈ ds, c.isDigit = true)
    (stop : ∀ c ∈ rest.head?, c.isDigit = false) : digits (ds ++ rest) = (ds, rest) := by
  have none : rest.takeWhile Char.isDigit = [] ∧ rest.dropWhile Char.isDigit = rest := by
    cases rest with
    | nil => exact ⟨rfl, rfl⟩
    | cons c rest => simp [stop c (by simp)]
  rw [digits, List.takeWhile_append_of_pos all, List.dropWhile_append_of_pos all, none.1, none.2,
    List.append_nil]

theorem Ended.not_isDigit {rest : List Char} (h : Ended rest) :
    ∀ c ∈ rest.head?, c.isDigit = false := by
  intro c hc
  rcases h c hc with rfl | rfl | rfl <;> rfl

/-- Some digits are read as they are. -/
theorem someDigits_append {ended : Malformed} {ds rest : List Char} (some : ds ≠ [])
    (all : ∀ c ∈ ds, c.isDigit = true) (stop : ∀ c ∈ rest.head?, c.isDigit = false) :
    someDigits ended (ds ++ rest) = .ok (ds, rest) := by
  unfold someDigits
  rw [digits_append all stop]
  cases ds with
  | nil => exact absurd rfl some
  | cons d ds => rfl

/-- Digits that do not start with a zero, or a single zero, are read as they are. -/
theorem wholeDigits_append {ended : Malformed} {ds rest : List Char} (some : ds ≠ [])
    (all : ∀ c ∈ ds, c.isDigit = true) (lead : ds.head? = .some '0' → ds = ['0'])
    (stop : ∀ c ∈ rest.head?, c.isDigit = false) :
    wholeDigits ended (ds ++ rest) = .ok (ds, rest) := by
  unfold wholeDigits
  rw [someDigits_append some all stop]
  simp only [bind, Except.bind]
  split
  · cases lead rfl
  · rfl

/-- The digits that are read are the digits of the text, up to what is left of it. -/
theorem someDigits_eq_ok {ended : Malformed} {text ds left : List Char}
    (h : someDigits ended text = .ok (ds, left)) :
    text = ds ++ left ∧ ds ≠ [] ∧ (∀ c ∈ ds, c.isDigit = true) ∧
      ∀ c ∈ left.head?, c.isDigit = false := by
  have parts : digits text = (ds, left) ∧ ds ≠ [] := by
    unfold someDigits at h
    split at h
    · cases h
    · cases h
    · rename_i _ _ _ notEmpty e
      cases h
      refine ⟨e, ?_⟩
      rintro rfl
      simp_all
  obtain ⟨rfl, rfl⟩ : text.takeWhile Char.isDigit = ds ∧ text.dropWhile Char.isDigit = left := by
    simpa [digits] using parts.1
  refine ⟨List.takeWhile_append_dropWhile.symm, parts.2, List.all_eq_true.mp List.all_takeWhile, ?_⟩
  intro c hc
  have := List.head?_dropWhile_not Char.isDigit text
  rw [Option.mem_def.mp hc] at this
  simpa using this

/-! ### Reading from a longer text -/

/-- A reader that reads some of a text reads the same from a longer one. -/
def Stable {α : Type} (reader : Reader α) : Prop :=
  ∀ text a left rest, Ended rest → reader text = .ok (a, left) →
    reader (text ++ rest) = .ok (a, left ++ rest)

/-- An answer that does not look at the text. -/
theorem stable_answer {α : Type} (answer : Except Malformed α) :
    Stable fun text => answer.bind fun a => .ok (a, text) := by
  intro text a left rest _ h
  cases answer with
  | error fault => cases h
  | ok b =>
    cases h
    rfl

/-- One reader after the other. -/
theorem Stable.bind {α β : Type} {reader : Reader α} {next : α → Reader β} (h : Stable reader)
    (h' : ∀ a, Stable (next a)) :
    Stable fun text => (reader text).bind fun read => next read.1 read.2 := by
  intro text b left rest ended hb
  cases ha : reader text with
  | error fault => simp only [ha] at hb; cases hb
  | ok read =>
    simp only [ha] at hb
    simp only [h text read.1 read.2 rest ended ha]
    exact h' read.1 read.2 b left rest ended hb

theorem stable_someDigits (ended : Malformed) : Stable (someDigits ended) := by
  intro text ds left rest hrest h
  obtain ⟨rfl, some, all, stop⟩ := someDigits_eq_ok h
  rw [List.append_assoc]
  refine someDigits_append some all ?_
  cases left with
  | nil => exact hrest.not_isDigit
  | cons c left => exact stop

theorem stable_wholeDigits (ended : Malformed) : Stable (wholeDigits ended) := by
  intro text ds left rest hrest h
  unfold wholeDigits at h ⊢
  cases hd : someDigits ended text with
  | error fault =>
    rw [hd] at h
    cases h
  | ok read =>
    rw [stable_someDigits ended text read.1 read.2 rest hrest hd]
    rw [hd] at h
    simp only [bind, Except.bind] at h ⊢
    split at h
    · cases h
    · cases h
      rfl

/-- What ends a value starts no fraction. -/
theorem fractionDigits_ended {ended : Malformed} {rest : List Char} (h : Ended rest) :
    fractionDigits ended rest = .ok ([], rest) := by
  unfold fractionDigits
  split
  · rcases h '.' rfl with e | e | e <;> cases e
  · rfl

/-- What ends a value starts no exponent. -/
theorem exponentDigits_ended {ended : Malformed} {rest : List Char} (h : Ended rest) :
    exponentDigits ended rest = .ok ((false, []), rest) := by
  cases rest with
  | nil => rfl
  | cons c rest =>
    have : ¬(c = 'e' ∨ c = 'E') := by
      rcases h c rfl with rfl | rfl | rfl <;> decide
    rw [exponentDigits, if_neg this]

theorem stable_fractionDigits (ended : Malformed) : Stable (fractionDigits ended) := by
  intro text ds left rest hrest h
  cases text with
  | nil =>
    cases h
    exact fractionDigits_ended hrest
  | cons c text =>
    by_cases point : c = '.'
    · subst point
      exact stable_someDigits ended text ds left rest hrest h
    · have plain (text : List Char) : fractionDigits ended (c :: text) = .ok ([], c :: text) := by
        unfold fractionDigits
        split
        · simp_all
        · rfl
      rw [plain] at h
      cases h
      exact plain _

theorem stable_exponentDigits (ended : Malformed) : Stable (exponentDigits ended) := by
  intro text e left rest hrest h
  cases text with
  | nil =>
    cases h
    exact exponentDigits_ended hrest
  | cons c text =>
    rw [List.cons_append]
    by_cases mark : c = 'e' ∨ c = 'E'
    · simp only [exponentDigits, if_pos mark] at h ⊢
      cases hd : someDigits ended (exponentSign text).2 with
      | error fault =>
        simp only [hd] at h
        cases h
      | ok read =>
        obtain ⟨ds, left'⟩ := read
        simp only [hd] at h
        cases h
        -- There is a digit, so the text does not end at the sign.
        have sign : exponentSign (text ++ rest) =
            ((exponentSign text).1, (exponentSign text).2 ++ rest) := by
          cases text with
          | nil => cases hd
          | cons c text =>
            unfold exponentSign
            rw [List.cons_append]
            split <;> simp_all
        simp only [sign, stable_someDigits ended _ _ _ rest hrest hd]
        rfl
    · simp only [exponentDigits, if_neg mark] at h ⊢
      cases h
      rfl

theorem stable_numberParts (ended : Malformed) (negative : Bool) :
    Stable (numberParts ended negative) :=
  (stable_wholeDigits ended).bind fun whole =>
    (stable_fractionDigits ended).bind fun fraction =>
      (stable_exponentDigits ended).bind fun exponent =>
        stable_answer (.ok (NumberText.mk negative whole fraction
          (!(fraction.isEmpty && exponent.2.isEmpty)) exponent.1 exponent.2))

theorem stable_number (negative : Bool) : Stable (number negative) :=
  (stable_numberParts .endInValue negative).bind fun parts => stable_answer parts.value

/-- A value that is a number starts with a minus sign or a digit. -/
theorem scalar_eq_number {text left : List Char} {n : Number}
    (h : scalar text = .ok (.number n, left)) :
    (∃ rest, text = '-' :: rest ∧ number true rest = .ok (n, left)) ∨
      ∃ c rest, text = c :: rest ∧ c.isDigit = true ∧ number false text = .ok (n, left) := by
  have read {negative : Bool} {text : List Char}
      (h : ((number negative text).bind fun read => .ok (Value.number read.1, read.2)) =
        .ok (Value.number n, left)) : number negative text = .ok (n, left) := by
    cases hn : number negative text with
    | error fault => rw [hn] at h; cases h
    | ok read =>
      rw [hn] at h
      cases h
      rfl
  unfold scalar at h
  split at h
  · cases hw : word ['u', 'l', 'l'] ‹_› <;> rw [hw] at h <;> cases h
  · cases hw : word ['r', 'u', 'e'] ‹_› <;> rw [hw] at h <;> cases h
  · cases hw : word ['a', 'l', 's', 'e'] ‹_› <;> rw [hw] at h <;> cases h
  · rename_i text
    cases hs : string text <;> rw [hs] at h <;> cases h
  · exact .inl ⟨_, rfl, read h⟩
  · split at h
    · exact .inr ⟨_, _, rfl, ‹_›, read h⟩
    · cases h
  · cases h

theorem scalar_of_digit {c : Char} {text left : List Char} {n : Number} (digit : c.isDigit = true)
    (h : number false (c :: text) = .ok (n, left)) :
    scalar (c :: text) = .ok (.number n, left) := by
  unfold scalar
  split <;> simp_all

/-- A number that is read from the whole of a text is read from the front of a longer one. -/
theorem scalar_append {text : List Char} {n : Number} (h : scalar text = .ok (.number n, []))
    {rest : List Char} (ended : Ended rest) : scalar (text ++ rest) = .ok (.number n, rest) := by
  obtain ⟨digits, rfl, read⟩ | ⟨c, digits, rfl, digit, read⟩ := scalar_eq_number h
  · have longer := stable_number true digits n [] rest ended read
    rw [List.cons_append, scalar, longer]
    rfl
  · exact scalar_of_digit digit (stable_number false _ n [] rest ended read)

/-! ### Parts as they are written -/

namespace NumberText

/-- The point and the digits after it, when there are any. -/
def fractionText (t : NumberText) : List Char :=
  if t.fraction = [] then [] else '.' :: t.fraction

/-- The exponent, always signed, when there is one. -/
def exponentText (t : NumberText) : List Char :=
  if t.exponent = [] then []
  else 'e' :: (if t.exponentNegative then '-' else '+') :: t.exponent

/-- The text of the parts after the sign. -/
def magnitudeText (t : NumberText) : List Char := t.whole ++ (t.fractionText ++ t.exponentText)

/-- The parts are those of some number. -/
structure Proper (t : NumberText) : Prop where
  some : t.whole ≠ []
  lead : t.whole.head? = .some '0' → t.whole = ['0']
  whole : ∀ c ∈ t.whole, c.isDigit = true
  fraction : ∀ c ∈ t.fraction, c.isDigit = true
  exponent : ∀ c ∈ t.exponent, c.isDigit = true
  float : t.isFloat = !(t.fraction.isEmpty && t.exponent.isEmpty)
  sign : t.exponent = [] → t.exponentNegative = false

end NumberText

theorem head?_exponentText (t : NumberText) {rest : List Char} (h : Ended rest) :
    ∀ c ∈ (t.exponentText ++ rest).head?, c ≠ '.' ∧ c.isDigit = false := by
  unfold NumberText.exponentText
  split
  · intro c hc
    rcases h c hc with rfl | rfl | rfl <;> decide
  · rintro c ⟨rfl⟩
    decide

theorem head?_fractionText (t : NumberText) {rest : List Char} (h : Ended rest) :
    ∀ c ∈ (t.fractionText ++ (t.exponentText ++ rest)).head?, c.isDigit = false := by
  unfold NumberText.fractionText
  split
  · exact fun c hc => (head?_exponentText t h c hc).2
  · rintro c ⟨rfl⟩
    rfl

theorem exponentDigits_exponentText {t : NumberText} (proper : t.Proper) (ended : Malformed)
    {rest : List Char} (h : Ended rest) :
    exponentDigits ended (t.exponentText ++ rest) =
      .ok ((t.exponentNegative, t.exponent), rest) := by
  unfold NumberText.exponentText
  split
  · rename_i none
    rw [none, proper.sign none]
    exact exponentDigits_ended h
  · rename_i some
    have digits : someDigits ended (t.exponent ++ rest) = .ok (t.exponent, rest) :=
      someDigits_append some proper.exponent h.not_isDigit
    rw [List.cons_append, exponentDigits, if_pos (.inl rfl)]
    have sign : exponentSign ((if t.exponentNegative = true then '-' else '+') :: t.exponent ++
        rest) = (t.exponentNegative, t.exponent ++ rest) := by
      cases t.exponentNegative <;> rfl
    simp only [sign, digits, bind, Except.bind, pure, Except.pure]

theorem fractionDigits_fractionText {t : NumberText} (proper : t.Proper) (ended : Malformed)
    {rest : List Char} (h : Ended rest) :
    fractionDigits ended (t.fractionText ++ (t.exponentText ++ rest)) =
      .ok (t.fraction, t.exponentText ++ rest) := by
  have stop := head?_exponentText t h
  unfold NumberText.fractionText
  split
  · rename_i none
    rw [none, List.nil_append]
    generalize t.exponentText ++ rest = text at stop
    unfold fractionDigits
    split
    · exact absurd rfl (stop '.' rfl).1
    · rfl
  · rename_i some
    exact someDigits_append some proper.fraction fun c hc => (stop c hc).2

/-- Parts are taken apart as they were put together. -/
theorem numberParts_magnitudeText {t : NumberText} (proper : t.Proper) (ended : Malformed)
    {rest : List Char} (h : Ended rest) :
    numberParts ended t.negative (t.magnitudeText ++ rest) = .ok (t, rest) := by
  rw [NumberText.magnitudeText, List.append_assoc, List.append_assoc, numberParts,
    wholeDigits_append proper.some proper.whole proper.lead (head?_fractionText t h)]
  simp only [bind, Except.bind, fractionDigits_fractionText proper ended h,
    exponentDigits_exponentText proper ended h, ← proper.float]
  rfl

/-! ### Ids -/

/-- Digits are gathered into their number while it fits in 64 bits. -/
theorem gather_eq {ds : List Char} {n : Nat}
    (h : Nat.ofDigitChars 10 ds n < 18446744073709551616) :
    gather n ds = (Nat.ofDigitChars 10 ds n, 0) := by
  induction ds generalizing n with
  | nil => rfl
  | cons c ds ih =>
    rw [Nat.ofDigitChars_cons] at h ⊢
    have step : 10 * n + digitValue c ≤ Nat.ofDigitChars 10 ds (10 * n + digitValue c) := by
      rw [Nat.ofDigitChars_eq_ofDigitChars_zero]
      exact Nat.le_add_right_of_le (Nat.le_mul_of_pos_left _ (Nat.pow_pos (by decide)))
    rw [gather, if_pos (Nat.lt_of_le_of_lt step h)]
    exact ih h

theorem isDigit_of_mem_toDigits {n : Nat} : ∀ c ∈ Nat.toDigits 10 n, c.isDigit = true :=
  fun _ => Nat.isDigit_of_mem_toDigits (by decide) (by decide)

theorem toDigits_of_head?_eq {n : Nat} (h : (Nat.toDigits 10 n).head? = some '0') :
    Nat.toDigits 10 n = ['0'] := by
  rcases Nat.eq_zero_or_pos n with rfl | pos
  · rfl
  · exact absurd h (head?_toDigits pos)

theorem numberParts_toDigits (ended : Malformed) (n : Nat) {rest : List Char} (h : Ended rest) :
    numberParts ended false (Nat.toDigits 10 n ++ rest) =
      .ok (⟨false, Nat.toDigits 10 n, [], false, false, []⟩, rest) := by
  have proper : (NumberText.mk false (Nat.toDigits 10 n) [] false false []).Proper :=
    ⟨Nat.toDigits_ne_nil, toDigits_of_head?_eq, isDigit_of_mem_toDigits, by simp, by simp, rfl,
      fun _ => rfl⟩
  have read := numberParts_magnitudeText proper ended h
  simpa [NumberText.magnitudeText, NumberText.fractionText, NumberText.exponentText] using read

/-- The digits of a natural number of 64 bits are read as the number. -/
theorem number_toDigits {n : Nat} (fits : n < 18446744073709551616) {rest : List Char}
    (h : Ended rest) : number false (Nat.toDigits 10 n ++ rest) = .ok (.integer n, rest) := by
  have gathered : gather 0 (Nat.toDigits 10 n) = (n, 0) := by
    rw [gather_eq, Nat.ofDigitChars_ten_toDigits]
    rwa [Nat.ofDigitChars_ten_toDigits]
  unfold number
  rw [numberParts_toDigits _ _ h]
  simp [bind, Except.bind, NumberText.value, gathered, pure, Except.pure]

theorem isBlank_of_isDigit {c : Char} (h : c.isDigit = true) : isBlank c = false := by
  rw [Bool.eq_false_iff]
  intro blank
  simp only [isBlank, Bool.or_eq_true, beq_iff_eq] at blank
  rcases blank with ((rfl | rfl) | rfl) | rfl <;> cases h

/-- An id is what a number of 32 bits stands for. -/
theorem nodeId_of_number {c : Char} {cs rest : List Char} {i : Int} (digit : c.isDigit = true)
    (read : number false (c :: cs) = .ok (.integer i, rest)) (fits : 0 ≤ i ∧ i < 4294967296) :
    nodeId (c :: cs) = .ok (⟨UInt32.ofNat i.toNat⟩, rest) := by
  unfold nodeId
  rw [skipBlanks_cons (isBlank_of_isDigit digit)]
  split
  · rename_i e; cases e
  · rename_i e
    cases e
    cases digit
  · rename_i e
    cases e
    simp [digit, read, fits, bind, Except.bind, pure, Except.pure]

/-- An id is read back. -/
theorem reads_nodeId (id : NodeId) : Reads nodeId (idText id) id := by
  obtain ⟨c, cs, hcs⟩ : ∃ c cs, idText id = c :: cs :=
    List.exists_cons_of_ne_nil Nat.toDigits_ne_nil
  have digit : c.isDigit = true := isDigit_of_mem_toDigits c (hcs ▸ List.mem_cons_self)
  refine ⟨⟨c, cs, hcs, isBlank_of_isDigit digit, ?_⟩, fun rest ended => ?_⟩
  · rintro rfl
    cases digit
  · have bound := id.val.toNat_lt
    have read : number false (idText id ++ rest) = _ := number_toDigits (by omega) ended
    rw [hcs, List.cons_append] at read ⊢
    rw [nodeId_of_number digit read (by omega), Int.toNat_natCast, UInt32.ofNat_toNat]

end NodeGraph.Document
