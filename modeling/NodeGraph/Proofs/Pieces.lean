import NodeGraph.Proofs.Extents

/-!
# The pieces of a list and of an object

Lists and objects are read by loops that differ in their closing bracket and in what a piece is: an
element, or a member with its key (`keyed`). Both are described by one relation without a clock
(`Run`): from where a piece has ended, a comma and a piece, again and again, up to the bracket. What
a member does to the state that is carried along is left out of it; the members are read as entries,
and these are added to the state one after the other (`Adds`, `members_eq_ok_iff`).

When the pieces are regular, a run can be taken apart and put together again. Over texts that are
whole, a run takes each of them for one piece (`Run.split`); the blanks around a piece do not
matter, nor does what comes before and after it, so the pieces can be joined in any order to another
run (`Run.join`). Conversely the text of every run falls into whole texts (`Run.exists_texts`).
-/

namespace NodeGraph.Document

/-! ### Runs -/

/-- The bracket closes a list or an object. -/
def IsClosing (c : Char) : Prop := c = ']' ∨ c = '\x7d'

theorem IsClosing.ne_comma {c : Char} (h : IsClosing c) : c ≠ ',' := by
  rcases h with rfl | rfl <;> decide

theorem IsClosing.isEnd {c : Char} (h : IsClosing c) : isEnd c = true := by
  rcases h with rfl | rfl <;> rfl

theorem IsClosing.closes {c : Char} (h : IsClosing c) : Closes (.outside 1) [c] := by
  rcases h with rfl | rfl <;> exact .single rfl rfl

/-- From where a piece has ended to the closing bracket: a comma comes before each piece that is
left. -/
inductive Run {ε : Type} (close : Char) (piece : Reader ε) :
    List Char → List ε → List Char → Prop where
  | done {text rest : List Char} (closed : skipBlanks text = close :: rest) :
      Run close piece text [] rest
  | next {text back start between rest : List Char} {c : Char} {e : ε} {es : List ε}
      (comma : skipBlanks text = ',' :: back) (opens : skipBlanks back = c :: start)
      (more : c ≠ close) (read : piece (c :: start) = .ok (e, between))
      (others : Run close piece between es rest) : Run close piece text (e :: es) rest

section Runs

variable {ε : Type} {close : Char} {piece : Reader ε}

theorem Run.blanks {blanks text rest : List Char} {es : List ε} (all : Blanks blanks) :
    Run close piece (blanks ++ text) es rest ↔ Run close piece text es rest := by
  have same := skipBlanks_append all text
  constructor
  · rintro (⟨closed⟩ | ⟨comma, opens, more, read, others⟩)
    · exact .done (same ▸ closed)
    · exact .next (same ▸ comma) opens more read others
  · rintro (⟨closed⟩ | ⟨comma, opens, more, read, others⟩)
    · exact .done (same.trans closed)
    · exact .next (same.trans comma) opens more read others

/-- After a comma there is a piece. -/
theorem run_comma {text rest : List Char} {es : List ε} (bracket : IsClosing close) :
    Run close piece (',' :: text) es rest ↔ ∃ c start e between others,
      skipBlanks text = c :: start ∧ c ≠ close ∧ piece (c :: start) = .ok (e, between) ∧
        Run close piece between others rest ∧ es = e :: others := by
  have comma : skipBlanks (',' :: text) = ',' :: text := skipBlanks_cons rfl text
  constructor
  · rintro (⟨closed⟩ | ⟨comma', opens, more, read, others⟩)
    · rw [comma] at closed
      cases closed
      exact absurd rfl bracket.ne_comma
    · rw [comma] at comma'
      cases comma'
      exact ⟨_, _, _, _, _, opens, more, read, others, rfl⟩
  · rintro ⟨c, start, e, between, others, opens, more, read, run, rfl⟩
    exact .next comma opens more read run

/-- A run starts with an end, after some blanks. -/
theorem Run.exists_isEnd {text rest : List Char} {es : List ε} (bracket : IsClosing close)
    (run : Run close piece text es rest) :
    ∃ blanks c back, Blanks blanks ∧ text = blanks ++ c :: back ∧ isEnd c = true := by
  obtain ⟨c, back, h, hc⟩ : ∃ c back, skipBlanks text = c :: back ∧ isEnd c = true := by
    rcases run with closed | comma
    · exact ⟨close, rest, ‹_›, bracket.isEnd⟩
    · exact ⟨',', _, ‹_›, rfl⟩
  obtain ⟨⟨blanks, all, e⟩, -⟩ := skipBlanks_eq_cons h
  exact ⟨blanks, c, back, all, e, hc⟩

/-- A run takes the text up to its closing bracket. -/
theorem Run.takes (regular : Regular (Closes (.outside 0)) piece)
    (bracket : IsClosing close) {text rest : List Char} {es : List ε}
    (run : Run close piece text es rest) :
    ∃ taken, text = taken ++ rest ∧ Closes (.outside 1) taken ∧
      ∀ rest', Run close piece (taken ++ rest') es rest' := by
  induction run with
  | @done text rest closed =>
    obtain ⟨⟨blanks, all, rfl⟩, solid⟩ := skipBlanks_eq_cons closed
    refine ⟨blanks ++ [close], by simp, .blanks all bracket.closes, fun rest' => .done ?_⟩
    rw [List.append_assoc, skipBlanks_append all]
    exact skipBlanks_cons solid rest'
  | @next text back start between rest c e es comma opens more read others ih =>
    obtain ⟨⟨blanks, all, rfl⟩, -⟩ := skipBlanks_eq_cons comma
    obtain ⟨⟨blanks', all', rfl⟩, solid⟩ := skipBlanks_eq_cons opens
    obtain ⟨u, rfl, closes, again⟩ := regular.cons read
    obtain ⟨v, rfl, closes', again'⟩ := ih
    refine ⟨blanks ++ ([','] ++ (blanks' ++ (c :: u ++ v))), by simp, ?_, fun rest' => ?_⟩
    · have inner := Closes.append (Whole.within closes.outside 1) closes'
      exact .blanks all (.append rfl (.blanks all' inner))
    · have same : Replaces (v ++ rest') (v ++ rest) := by
        obtain ⟨front, d, rfl, -⟩ := closes'.solid
        cases front <;> exact .inr rfl
      have comma' : skipBlanks (blanks ++ ([','] ++ (blanks' ++ (c :: u ++ v))) ++ rest') =
          ',' :: (blanks' ++ c :: (u ++ (v ++ rest'))) := by
        rw [List.append_assoc, skipBlanks_append all]
        simp [skipBlanks_cons (show isBlank ',' = false from rfl)]
      refine .next comma' ?_ more (again _ same) (again' rest')
      rw [skipBlanks_append all', skipBlanks_cons solid]

/-- From the opening bracket to the closing one: nothing, or a run that starts as if a comma stood
before the first piece. -/
def Inside (close : Char) (piece : Reader ε) (text : List Char) (es : List ε)
    (rest : List Char) : Prop :=
  es = [] ∧ skipBlanks text = close :: rest ∨ Run close piece (',' :: text) es rest

/-- The inside of brackets is taken up to the closing one. -/
theorem Inside.takes (regular : Regular (Closes (.outside 0)) piece)
    (bracket : IsClosing close) {text rest : List Char} {es : List ε}
    (h : Inside close piece text es rest) :
    ∃ taken, text = taken ++ rest ∧ Closes (.outside 1) taken ∧
      ∀ rest', Inside close piece (taken ++ rest') es rest' := by
  rcases h with ⟨rfl, closed⟩ | run
  · obtain ⟨⟨blanks, all, rfl⟩, solid⟩ := skipBlanks_eq_cons closed
    refine ⟨blanks ++ [close], by simp, .blanks all bracket.closes, fun rest' => .inl ⟨rfl, ?_⟩⟩
    rw [List.append_assoc, skipBlanks_append all]
    exact skipBlanks_cons solid rest'
  · obtain ⟨taken, e, closes, again⟩ := run.takes regular bracket
    obtain ⟨rfl, -⟩ | ⟨taken, rfl, rfl⟩ := List.cons_eq_append_iff.mp e
    · cases closes.outside
    · exact ⟨taken, rfl, closes.of_cons rfl (by decide), fun rest' => .inr (again rest')⟩

/-- The reader takes a text for itself as a value, in front of any delimiter. -/
structure Piece (close : Char) (piece : Reader ε) (text : List Char) (e : ε) : Prop where
  opens : ∃ c rest, text = c :: rest ∧ isBlank c = false ∧ c ≠ close
  read : ∀ rest, Delimited rest → piece (text ++ rest) = .ok (e, rest)

/-- Pieces, with a comma before each of them. -/
def commas (pieces : List (List Char)) : List Char := (pieces.map (',' :: ·)).flatten

@[simp] theorem commas_cons (piece : List Char) (pieces : List (List Char)) :
    commas (piece :: pieces) = ',' :: (piece ++ commas pieces) := rfl

/-- Pieces that are joined by commas need one more, before the first of them. -/
theorem comma_intercalate {pieces : List (List Char)} (some : pieces ≠ []) :
    ',' :: [','].intercalate pieces = commas pieces := by
  obtain ⟨piece, pieces, rfl⟩ := List.exists_cons_of_ne_nil some
  rw [intercalate_cons, commas_cons]
  rfl

/-- What follows a piece starts with an end. -/
theorem exists_isEnd_commas (pieces : List (List Char)) {c : Char} (rest : List Char)
    (h : isEnd c = true) : ∃ d rest', commas pieces ++ c :: rest = d :: rest' ∧ isEnd d = true := by
  cases pieces with
  | nil => exact ⟨c, rest, rfl, h⟩
  | cons piece pieces => exact ⟨',', _, rfl, rfl⟩

theorem delimited_of_isEnd {c : Char} {rest : List Char} (h : isEnd c = true) :
    Delimited (c :: rest) := by
  rintro d ⟨⟩
  simp [isDelimiter, h]

theorem delimited_blanks {blanks text : List Char} (all : Blanks blanks) (h : Delimited text) :
    Delimited (blanks ++ text) := by
  cases blanks with
  | nil => exact h
  | cons c blanks =>
    rintro d ⟨⟩
    simp [isDelimiter, all c List.mem_cons_self]

/-- A run over whole texts takes each of them for a piece, without the blanks around it. -/
theorem Run.split (regular : Regular (Closes (.outside 0)) piece)
    (bracket : IsClosing close) {texts : List (List Char)}
    (whole : ∀ text ∈ texts, Whole text) {c : Char} {text rest : List Char} {es : List ε}
    (hc : isEnd c = true) (run : Run close piece (commas texts ++ c :: text) es rest) :
    ∃ first others, es = first ++ others ∧
      List.Forall₂ (Piece close piece) (texts.map trim) first ∧
        Run close piece (c :: text) others rest := by
  induction texts generalizing es with
  | nil => exact ⟨[], es, rfl, .nil, run⟩
  | cons text' texts ih =>
    rw [commas_cons, List.cons_append, run_comma bracket] at run
    obtain ⟨d, start, e, between, es, opens, more, read, run, rfl⟩ := run
    obtain ⟨⟨blanks, all, front⟩, solid⟩ := skipBlanks_eq_cons opens
    obtain ⟨u, rfl, closes, again⟩ := regular.cons read
    -- The piece that was read ends where the run goes on, with a comma or the closing bracket.
    obtain ⟨blanks', d', back, all', rfl, hd'⟩ := run.exists_isEnd bracket
    obtain ⟨d'', back', next, hd''⟩ := exists_isEnd_commas texts text hc
    have whole' : Whole (blanks ++ d :: u ++ blanks') :=
      (all.whole.append closes.outside).append all'.whole
    have same : text' ++ d'' :: back' = (blanks ++ d :: u ++ blanks') ++ d' :: back := by
      rw [← next, ← List.append_assoc, front]
      simp
    obtain ⟨rfl, tail⟩ := (whole _ List.mem_cons_self).unique whole' hd'' hd' same
    rw [Run.blanks all', ← tail, ← next] at run
    obtain ⟨first, others, rfl, pieces, run⟩ :=
      ih (fun text h => whole text (List.mem_cons_of_mem _ h)) run
    refine ⟨e :: first, others, rfl, .cons ?_ pieces, run⟩
    rw [trim_blanks all all' (by rintro _ ⟨⟩; exact solid) closes.solid]
    exact ⟨⟨d, u, rfl, solid, more⟩, fun rest delimited => again rest (.inl delimited)⟩

/-- Pieces in a row, with blanks around each of them, are a run. -/
theorem Run.join {texts : List (List Char)} {first : List ε}
    (pieces : List.Forall₂ (Piece close piece) (texts.map trim) first) {c : Char}
    {text rest : List Char} {others : List ε} (hc : isEnd c = true)
    (run : Run close piece (c :: text) others rest) :
    Run close piece (commas texts ++ c :: text) (first ++ others) rest := by
  induction texts generalizing first with
  | nil =>
    cases pieces
    exact run
  | cons text' texts ih =>
    rw [List.map_cons, List.forall₂_cons_left_iff] at pieces
    obtain ⟨e, first, head, tail, rfl⟩ := pieces
    obtain ⟨before, back, all, all', h⟩ := exists_trim text'
    obtain ⟨d, start, ht, solid, more⟩ := head.opens
    have delimited : Delimited (back ++ (commas texts ++ c :: text)) := by
      obtain ⟨d', rest', e', hd'⟩ := exists_isEnd_commas texts text hc
      rw [e']
      exact delimited_blanks all' (delimited_of_isEnd hd')
    have read := head.read _ delimited
    have opens : skipBlanks (text' ++ (commas texts ++ c :: text)) =
        d :: (start ++ (back ++ (commas texts ++ c :: text))) := by
      conv_lhs => rw [h, List.append_assoc, List.append_assoc, skipBlanks_append all, ht]
      exact skipBlanks_cons solid _
    rw [ht, List.cons_append] at read
    rw [commas_cons, List.cons_append, List.append_assoc]
    exact .next (skipBlanks_cons rfl _) opens more read ((Run.blanks all').mpr (ih tail))

/-- A piece that is read as another one may stand in its place. -/
theorem Run.replace (regular : Regular (Closes (.outside 0)) piece)
    (bracket : IsClosing close) {texts : List (List Char)}
    (whole : ∀ text ∈ texts, Whole text) {c : Char} {text text' start start' rest : List Char}
    {es : List ε} (opens : skipBlanks text = c :: start) (opens' : skipBlanks text' = c :: start')
    (same : ∀ e between, piece (c :: start) = .ok (e, between) →
      piece (c :: start') = .ok (e, between))
    (run : Run close piece (commas texts ++ ',' :: text) es rest) :
    Run close piece (commas texts ++ ',' :: text') es rest := by
  obtain ⟨first, others, rfl, pieces, last⟩ := run.split regular bracket whole rfl
  rw [run_comma bracket] at last
  obtain ⟨d, start, e, between, others, h, more, read, last, rfl⟩ := last
  cases opens.symm.trans h
  exact Run.join pieces rfl ((run_comma bracket).mpr
    ⟨c, start', e, between, others, opens', more, same e between read, last, rfl⟩)

/-- Pieces, with a comma after each of them. -/
def followed (pieces : List (List Char)) : List Char := (pieces.map (· ++ [','])).flatten

theorem comma_followed (pieces : List (List Char)) (text : List Char) :
    ',' :: (followed pieces ++ text) = commas pieces ++ ',' :: text := by
  induction pieces with
  | nil => rfl
  | cons piece pieces ih =>
    rw [commas_cons, List.cons_append, List.append_assoc, ← ih]
    simp [followed]

/-- Brackets with something in them are not closed at once. -/
theorem Inside.run (bracket : IsClosing close) {texts : List (List Char)}
    (whole : ∀ text ∈ texts, Whole text) {c : Char} {text start rest : List Char} {es : List ε}
    (opens : skipBlanks text = c :: start) (more : c ≠ close)
    (h : Inside close piece (followed texts ++ text) es rest) :
    Run close piece (commas texts ++ ',' :: text) es rest := by
  rw [Inside, comma_followed] at h
  refine h.resolve_left ?_
  rintro ⟨-, closed⟩
  cases texts with
  | nil =>
    cases opens.symm.trans closed
    exact more rfl
  | cons t ts =>
    obtain ⟨⟨blanks, all, e⟩, -⟩ := skipBlanks_eq_cons closed
    have e' : t ++ ',' :: (followed ts ++ text) = blanks ++ close :: rest := by
      rw [← e]
      simp [followed]
    obtain ⟨-, comma⟩ := (whole t List.mem_cons_self).unique all.whole rfl bracket.isEnd e'
    cases comma
    exact bracket.ne_comma rfl

/-- The text of a run falls into whole texts, one for each piece that was read. -/
theorem Run.exists_texts (regular : Regular (Closes (.outside 0)) piece)
    (bracket : IsClosing close) {first others : List ε} {text rest : List Char}
    (run : Run close piece text (first ++ others) rest) :
    ∃ blanks texts c back, Blanks blanks ∧ (∀ t ∈ texts, Whole t) ∧
      texts.length = first.length ∧ text = blanks ++ (commas texts ++ c :: back) ∧
        isEnd c = true ∧ Run close piece (c :: back) others rest := by
  induction first generalizing text with
  | nil =>
    obtain ⟨blanks, c, back, all, rfl, hc⟩ := run.exists_isEnd bracket
    exact ⟨blanks, [], c, back, all, by simp, rfl, rfl, hc, (Run.blanks all).mp run⟩
  | cons e first ih =>
    cases run with
    | @next _ before start between _ c _ _ comma opens more read run =>
      obtain ⟨⟨blanks, all, rfl⟩, -⟩ := skipBlanks_eq_cons comma
      obtain ⟨⟨gap, all', rfl⟩, -⟩ := skipBlanks_eq_cons opens
      obtain ⟨u, rfl, closes, -⟩ := regular.cons read
      obtain ⟨gap', texts, d, back, all'', whole, length, rfl, hd, run⟩ := ih run
      refine ⟨blanks, (gap ++ c :: u ++ gap') :: texts, d, back, all, ?_, by simp [length],
        by simp, hd, run⟩
      rintro t (_ | ⟨_, ht⟩)
      · exact (all'.whole.append closes.outside).append all''.whole
      · exact whole t ht

/-- The same, from the opening bracket on. -/
theorem Run.exists_commas (regular : Regular (Closes (.outside 0)) piece)
    (bracket : IsClosing close) {first others : List ε} {inside rest : List Char}
    (run : Run close piece (',' :: inside) (first ++ others) rest) :
    ∃ texts c back, (∀ t ∈ texts, Whole t) ∧ texts.length = first.length ∧
      ',' :: inside = commas texts ++ c :: back ∧ skipBlanks (c :: back) = c :: back ∧
        Run close piece (c :: back) others rest := by
  obtain ⟨blanks, texts, c, back, all, whole, length, e, hc, run⟩ :=
    run.exists_texts regular bracket
  have none : blanks = [] := by
    cases blanks with
    | nil => rfl
    | cons d blanks =>
      cases e
      cases all ',' List.mem_cons_self
  rw [none] at e
  refine ⟨texts, c, back, whole, length, e, ?_, run⟩
  simp only [isEnd, Bool.or_eq_true, beq_iff_eq] at hc
  rcases hc with (rfl | rfl) | rfl <;> exact skipBlanks_cons rfl _

/-- A piece inside brackets stands after a comma for each piece before it. -/
theorem Run.exists_followed (regular : Regular (Closes (.outside 0)) piece)
    (bracket : IsClosing close) {first others : List ε} {e : ε} {inside rest : List Char}
    (run : Run close piece (',' :: inside) (first ++ e :: others) rest) :
    ∃ texts gap c start between, (∀ t ∈ texts, Whole t) ∧ texts.length = first.length ∧
      Blanks gap ∧ inside = followed texts ++ (gap ++ c :: start) ∧ isBlank c = false ∧
        piece (c :: start) = .ok (e, between) := by
  obtain ⟨texts, c, back, whole, length, h, solid, run⟩ := run.exists_commas regular bracket
  cases run with
  | @next _ before start between _ d _ _ comma opens more read run =>
    cases solid.symm.trans comma
    obtain ⟨⟨gap, all, rfl⟩, solid'⟩ := skipBlanks_eq_cons opens
    rw [← comma_followed] at h
    exact ⟨texts, gap, d, start, between, whole, length, all, (List.cons.inj h).2, solid', read⟩

/-- The pieces inside brackets, up to the closing one. -/
theorem Run.exists_intercalate (regular : Regular (Closes (.outside 0)) piece)
    (bracket : IsClosing close) {es : List ε} {inside rest : List Char} (some : es ≠ [])
    (run : Run close piece (',' :: inside) es rest) :
    ∃ texts, (∀ t ∈ texts, Whole t) ∧ inside = [','].intercalate texts ++ close :: rest := by
  rw [← List.append_nil es] at run
  obtain ⟨texts, c, back, whole, length, h, solid, run⟩ := run.exists_commas regular bracket
  cases run with
  | done closed =>
    cases solid.symm.trans closed
    have some' : texts ≠ [] := by
      rintro rfl
      exact some (List.length_eq_zero_iff.mp length.symm)
    rw [← comma_intercalate some', List.cons_append] at h
    exact ⟨texts, whole, (List.cons.inj h).2⟩

end Runs

/-! ### Lists -/

theorem length_of_skipBlanks {text rest : List Char} {c : Char} (h : skipBlanks text = c :: rest) :
    rest.length < text.length := by
  obtain ⟨⟨blanks, -, rfl⟩, -⟩ := skipBlanks_eq_cons h
  simp
  omega

/-- A round of a loop leaves less of the text. -/
theorem length_of_round {ε : Type} {piece : Reader ε}
    (regular : Regular (Closes (.outside 0)) piece) {text back start between : List Char}
    {c : Char} {e : ε} (comma : skipBlanks text = ',' :: back)
    (opens : skipBlanks back = c :: start) (read : piece (c :: start) = .ok (e, between)) :
    between.length < text.length := by
  have first := length_of_skipBlanks comma
  have second := length_of_skipBlanks opens
  obtain ⟨u, rfl, -⟩ := regular.cons read
  rw [List.length_append] at second
  omega

/-- The loop over the elements of a list is a run, when its clock is as long as the text. -/
theorem moreItems_eq_ok_iff {α : Type} {item : Reader α}
    (regular : Regular (Closes (.outside 0)) item) {clock text rest : List Char} {xs : List α}
    (long : text.length ≤ clock.length) :
    moreItems item clock text = .ok (xs, rest) ↔ Run ']' item text xs rest := by
  induction clock generalizing text xs with
  | nil =>
    obtain rfl : text = [] := List.length_eq_zero_iff.mp (Nat.le_zero.mp long)
    constructor
    · rintro ⟨⟩
    · rintro (⟨⟨⟩⟩ | ⟨⟨⟩, _⟩)
  | cons _ clock ih =>
    unfold moreItems
    constructor
    · intro read
      split at read
      · cases read
      · cases read
        exact .done ‹_›
      · rename_i back comma
        split at read
        · cases read
        · cases read
        · rename_i empty closed
          rw [bind_eq_ok] at read
          obtain ⟨⟨x, between⟩, first, read⟩ := read
          rw [bind_eq_ok] at read
          obtain ⟨⟨ys, between'⟩, others, read⟩ := read
          cases read
          cases opens : skipBlanks back with
          | nil => exact absurd opens empty
          | cons c start =>
            rw [opens] at first
            have shorter := length_of_round regular comma opens first
            exact .next comma opens (fun e => closed start (e ▸ opens)) first
              ((ih (by simp at long; omega)).mp others)
      · cases read
    · rintro (⟨closed⟩ | ⟨comma, opens, more, first, others⟩)
      · rw [closed]
        rfl
      · have shorter := length_of_round regular comma opens first
        have others := (ih (by simp at long; omega)).mpr others
        simp only [comma, opens]
        split
        · simp_all
        · simp_all
        · simp [first, others, bind, Except.bind, pure, Except.pure]

theorem items_eq_ok_iff {α : Type} {item : Reader α} (regular : Regular (Closes (.outside 0)) item)
    {text rest : List Char} {xs : List α} :
    items item text = .ok (xs, rest) ↔ Inside ']' item text xs rest := by
  rw [Inside, run_comma (.inl rfl)]
  unfold items
  constructor
  · intro read
    split at read
    · cases read
    · cases read
      exact .inl ⟨rfl, ‹_›⟩
    · rename_i empty closed
      rw [bind_eq_ok] at read
      obtain ⟨⟨x, between⟩, first, read⟩ := read
      rw [bind_eq_ok] at read
      obtain ⟨⟨ys, between'⟩, others, read⟩ := read
      cases read
      cases opens : skipBlanks text with
      | nil => exact absurd opens empty
      | cons c start =>
        rw [opens] at first
        exact .inr ⟨c, start, x, between, ys, rfl, fun e => closed start (e ▸ opens), first,
          (moreItems_eq_ok_iff regular (Nat.le_refl _)).mp others, rfl⟩
  · rintro (⟨rfl, closed⟩ | ⟨c, start, x, between, ys, opens, more, first, others, rfl⟩)
    · rw [closed]
      rfl
    · have others := (moreItems_eq_ok_iff regular (Nat.le_refl _)).mpr others
      simp only [opens]
      split
      · simp_all
      · simp_all
      · simp [first, others, bind, Except.bind, pure, Except.pure]

theorem regular_items {α : Type} {item : Reader α} (regular : Regular (Closes (.outside 0)) item) :
    Regular (Closes (.outside 1)) (items item) := by
  intro text xs rest read
  rw [items_eq_ok_iff regular] at read
  obtain ⟨taken, rfl, closes, again⟩ := read.takes regular (.inl rfl)
  exact ⟨taken, rfl, closes, fun rest' _ => (items_eq_ok_iff regular).mpr (again rest')⟩

theorem regular_listOf {α : Type} {item : Reader α} (regular : Regular (Closes (.outside 0)) item) :
    Regular (Closes (.outside 0)) (listOf item) := by
  refine regular_of_skipBlanks (fun text => by simp only [listOf, skipBlanks_skipBlanks])
    (fun c text xs rest solid read => ?_) (fun read h => by cases h)
  rw [listOf, skipBlanks_cons solid] at read
  split at read
  · cases read
  · rename_i e
    cases e
    exact (regular_items regular _ _ _ read).cons (fun _ => rfl) fun u h => h.cons rfl
  · cases read

/-! ### Objects -/

/-- A member, from its key on; what follows the key is left to a reader that is given it. -/
def keyed {ε : Type} (entry : String → Reader ε) : Reader ε
  | '"' :: rest => do
    let (key, rest) ← string rest
    entry key rest
  | _ => .error .keyNotString

theorem keyed_eq_ok {ε : Type} {entry : String → Reader ε} {text rest : List Char} {e : ε} :
    keyed entry text = .ok (e, rest) ↔ ∃ start key between, text = '"' :: start ∧
      string start = .ok (key, between) ∧ entry key between = .ok (e, rest) := by
  constructor
  · intro read
    unfold keyed at read
    split at read
    · rw [bind_eq_ok] at read
      obtain ⟨⟨key, between⟩, hk, read⟩ := read
      exact ⟨_, key, between, rfl, hk, read⟩
    · cases read
  · rintro ⟨start, key, between, rfl, hk, read⟩
    exact bind_eq_ok.mpr ⟨(key, between), hk, read⟩

/-- A reader that carries a state on reads an entry and adds it to the state. -/
def Adds {σ ε : Type} (member : σ → String → Reader σ) (entry : String → Reader ε)
    (add : σ → ε → Option σ) : Prop :=
  ∀ state key text state' rest, member state key text = .ok (state', rest) ↔
    ∃ e, entry key text = .ok (e, rest) ∧ add state e = some state'

theorem regular_keyed {ε : Type} {entry : String → Reader ε}
    (regular : ∀ key, Regular (Closes (.outside 0)) (entry key)) :
    Regular (Closes (.outside 0)) (keyed entry) := by
  intro text e rest read
  unfold keyed at read
  split at read
  · have member := regular_string.bind regular fun u v (hu : Closes _ u) (hv : Closes _ v) =>
      Closes.append hu.outside hv
    exact (member _ _ _ read).cons (fun _ => rfl) fun u h => h.cons rfl
  · cases read

section Members

variable {σ ε : Type} {member : σ → String → Reader σ} {entry : String → Reader ε}
  {add : σ → ε → Option σ}

/-- A member and what comes after it. -/
theorem member_eq_ok_iff (adds : Adds member entry add) (more : σ → Reader σ)
    {start rest : List Char} {state state' : σ} :
    (do
      let (key, rest) ← string start
      let (state, rest) ← member state key rest
      more state rest) = .ok (state', rest) ↔
    ∃ e state'' between, keyed entry ('"' :: start) = .ok (e, between) ∧
      add state e = some state'' ∧ more state'' between = .ok (state', rest) := by
  simp only [bind_eq_ok, keyed_eq_ok]
  constructor
  · rintro ⟨⟨key, between⟩, hk, ⟨state'', between'⟩, first, others⟩
    obtain ⟨e, first, added⟩ := (adds ..).mp first
    exact ⟨e, state'', between', ⟨start, key, between, rfl, hk, first⟩, added, others⟩
  · rintro ⟨e, state'', between', ⟨start, key, between, ⟨⟩, hk, first⟩, added, others⟩
    exact ⟨(key, between), hk, (state'', between'), (adds ..).mpr ⟨e, first, added⟩, others⟩

theorem foldlM_cons_eq_some {e : ε} {es : List ε} {state state' : σ} :
    (e :: es).foldlM add state = some state' ↔
      ∃ state'', add state e = some state'' ∧ es.foldlM add state'' = some state' := by
  rw [List.foldlM_cons]
  exact Option.bind_eq_some_iff

/-- The loop over the members of an object is a run, whose entries are added one after the other. -/
theorem moreMembers_eq_ok_iff (adds : Adds member entry add)
    (regular : ∀ key, Regular (Closes (.outside 0)) (entry key)) {clock text rest : List Char}
    {state state' : σ} (long : text.length ≤ clock.length) :
    moreMembers member clock state text = .ok (state', rest) ↔
      ∃ es, Run '\x7d' (keyed entry) text es rest ∧ es.foldlM add state = some state' := by
  induction clock generalizing text state with
  | nil =>
    obtain rfl : text = [] := List.length_eq_zero_iff.mp (Nat.le_zero.mp long)
    constructor
    · rintro ⟨⟩
    · rintro ⟨es, ⟨⟨⟩⟩ | ⟨⟨⟩, _⟩, _⟩
  | cons _ clock ih =>
    unfold moreMembers
    constructor
    · intro read
      split at read
      · cases read
      · cases read
        exact ⟨[], .done ‹_›, rfl⟩
      · rename_i comma
        split at read
        · cases read
        · cases read
        · rename_i opens
          obtain ⟨e, state'', between, first, added, others⟩ := (member_eq_ok_iff adds _).mp read
          have shorter := length_of_round (regular_keyed regular) comma opens first
          obtain ⟨es, run, added'⟩ := (ih (by simp at long; omega)).mp others
          exact ⟨e :: es, .next comma opens (by decide) first run,
            foldlM_cons_eq_some.mpr ⟨state'', added, added'⟩⟩
        · cases read
      · cases read
    · rintro ⟨es, ⟨closed⟩ | ⟨comma, opens, more, first, others⟩, added⟩
      · cases added
        rw [closed]
        rfl
      · have shorter := length_of_round (regular_keyed regular) comma opens first
        obtain ⟨state'', added, added'⟩ := foldlM_cons_eq_some.mp added
        have others := (ih (by simp at long; omega)).mpr ⟨_, others, added'⟩
        obtain ⟨start, -, -, ⟨⟩, -⟩ := keyed_eq_ok.mp first
        simp only [comma, opens]
        exact (member_eq_ok_iff adds _).mpr ⟨_, state'', _, first, added, others⟩

theorem members_eq_ok_iff (adds : Adds member entry add)
    (regular : ∀ key, Regular (Closes (.outside 0)) (entry key)) {text rest : List Char}
    {state state' : σ} :
    members member state text = .ok (state', rest) ↔
      ∃ es, Inside '\x7d' (keyed entry) text es rest ∧ es.foldlM add state = some state' := by
  let more (state : σ) : Reader σ := fun rest => moreMembers member rest state rest
  have loop {clock : List Char} {state : σ} :
      moreMembers member clock state clock = .ok (state', rest) ↔ _ :=
    moreMembers_eq_ok_iff adds regular (Nat.le_refl _)
  simp only [Inside, run_comma (show IsClosing '\x7d' from .inr rfl)]
  unfold members
  constructor
  · intro read
    split at read
    · cases read
    · cases read
      exact ⟨[], .inl ⟨rfl, ‹_›⟩, rfl⟩
    · rename_i start opens
      obtain ⟨e, state'', between, first, added, others⟩ := (member_eq_ok_iff adds more).mp read
      obtain ⟨es, run, added'⟩ := loop.mp others
      exact ⟨e :: es, .inr ⟨_, start, e, between, es, opens, by decide, first, run, rfl⟩,
        foldlM_cons_eq_some.mpr ⟨state'', added, added'⟩⟩
    · cases read
  · rintro ⟨es, ⟨rfl, closed⟩ | ⟨c, start, e, between, es, opens, -, first, run, rfl⟩, added⟩
    · cases added
      rw [closed]
      rfl
    · obtain ⟨state'', added, added'⟩ := foldlM_cons_eq_some.mp added
      obtain ⟨start, -, -, ⟨⟩, -⟩ := keyed_eq_ok.mp first
      simp only [opens]
      exact (member_eq_ok_iff adds more).mpr
        ⟨e, state'', between, first, added, loop.mpr ⟨es, run, added'⟩⟩

theorem regular_members (adds : Adds member entry add)
    (regular : ∀ key, Regular (Closes (.outside 0)) (entry key)) (state : σ) :
    Regular (Closes (.outside 1)) (members member state) := by
  intro text state' rest read
  obtain ⟨es, inside, added⟩ := (members_eq_ok_iff adds regular).mp read
  obtain ⟨taken, rfl, closes, again⟩ := inside.takes (regular_keyed regular) (.inr rfl)
  exact ⟨taken, rfl, closes, fun rest' _ =>
    (members_eq_ok_iff adds regular).mpr ⟨es, again rest', added⟩⟩

end Members

/-! ### Values -/

/-- What follows the key of a member. -/
def afterColon {α : Type} (reader : Reader α) : Reader α := fun text => colon text >>= reader

theorem regular_afterColon {α : Type} {reader : Reader α}
    (regular : Regular (Closes (.outside 0)) reader) :
    Regular (Closes (.outside 0)) (afterColon reader) := by
  intro text a rest read
  rw [afterColon, bind_eq_ok] at read
  obtain ⟨between, hc, read⟩ := read
  obtain ⟨u, rfl, closes, again⟩ := regular_colon _ _ _ (passing_eq_ok.mpr hc)
  obtain ⟨v, rfl, closes', again'⟩ := regular _ _ _ read
  refine ⟨u ++ v, by simp, .append closes.outside closes', fun rest' stands => ?_⟩
  rw [List.append_assoc]
  exact bind_eq_ok.mpr ⟨_, passing_eq_ok.mp (again _ (stands.append v)), again' rest' stands⟩

/-- The members of a value: each of them is a value under its key. -/
theorem adds_value (room : Nat) :
    Adds (fun ms key text => do
        let text ← colon text
        let (x, rest) ← value room text
        return (ms ++ [(key, x)], rest))
      (fun key text => afterColon (value room) text >>= fun read => .ok ((key, read.1), read.2))
      fun (ms : List (String × Value)) m => some (ms ++ [m]) := by
  intro ms key text ms' rest
  simp only [afterColon, bind_assoc, bind_eq_ok, Option.some.injEq, pure, Except.pure,
    Except.ok.injEq, Prod.mk.injEq]
  constructor
  · rintro ⟨between, hc, ⟨x, rest⟩, hx, rfl, rfl⟩
    exact ⟨_, ⟨between, hc, (x, rest), hx, rfl, rfl⟩, rfl⟩
  · rintro ⟨_, ⟨between, hc, ⟨x, rest⟩, hx, rfl, rfl⟩, rfl⟩
    exact ⟨between, hc, (x, rest), hx, rfl, rfl⟩

theorem value_skipBlanks (room : Nat) (text : List Char) :
    value room text = value room (skipBlanks text) := by
  unfold value
  rw [skipBlanks_skipBlanks]

/-- A value without brackets is taken as it is, in any room. -/
theorem takes_scalar {room : Nat} {c : Char} {text rest : List Char} {x : Value}
    (solid : isBlank c = false) (list : c ≠ '[') (object : c ≠ '\x7b')
    (read : value room (c :: text) = .ok (x, rest)) :
    Takes (Closes (.outside 0)) (value room) (c :: text) x rest := by
  have same (text : List Char) : value room (c :: text) = scalar (c :: text) := by
    unfold value
    rw [skipBlanks_cons solid]
    split <;> simp_all
  rw [same] at read
  obtain ⟨u, rfl, closes, again⟩ := regular_scalar.cons read
  exact ⟨c :: u, rfl, closes, fun rest' stands => (same _).trans (again rest' stands)⟩

theorem regular_value (room : Nat) : Regular (Closes (.outside 0)) (value room) := by
  induction room with
  | zero =>
    refine regular_of_skipBlanks (value_skipBlanks 0) (fun c text x rest solid read => ?_)
      (fun read h => by cases h)
    refine takes_scalar solid ?_ ?_ read
    · rintro rfl
      cases read
    · rintro rfl
      cases read
  | succ room ih =>
    refine regular_of_skipBlanks (value_skipBlanks (room + 1)) (fun c text x rest solid read => ?_)
      (fun read h => by cases h)
    by_cases list : c = '['
    · subst list
      have inside := (regular_items ih).map Value.sequence
      exact (inside _ _ _ read).cons (fun _ => rfl) fun u h => h.cons rfl
    by_cases object : c = '\x7b'
    · subst object
      have inside := (regular_members (adds_value room) (fun key =>
        (regular_afterColon ih).map fun x => (key, x)) []).map Value.map
      exact (inside _ _ _ read).cons (fun _ => rfl) fun u h => h.cons rfl
    exact takes_scalar solid list object read

end NodeGraph.Document
